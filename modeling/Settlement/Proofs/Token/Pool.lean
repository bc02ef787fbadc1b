import Settlement.Proofs.Result
import Settlement.Proofs.Table
import Settlement.Proofs.Word
import Settlement.Token.Pool

namespace Settlement

section unlessRefused

variable {α τ : Type} {state t : τ} {r : Result (α × τ)} {a : α} {e : Error}

theorem unlessRefused_eq_ok_iff : unlessRefused state r = (.ok a, t) ↔ r = .ok (a, t) := by
  cases r with
  | error e' => simp [unlessRefused]
  | ok answer => simp [unlessRefused, Prod.ext_iff]

theorem unlessRefused_eq_error_iff :
    unlessRefused state r = (.error e, t) ↔ r = .error e ∧ t = state := by
  cases r with
  | error e' => simp [unlessRefused, eq_comm]
  | ok answer => simp [unlessRefused]

end unlessRefused

namespace PoolToken

variable {t sent t' : PoolToken} {who other : Address} {amount received : Amount}
  {receipt : TransferReceipt} {e : Error}

theorem get?_setBalance (t : PoolToken) (who other : Address) (amount : Amount) :
    (t.setBalance who amount).balances.get? other =
      if other = who then (if amount = 0 then none else some amount)
      else t.balances.get? other := by
  unfold setBalance
  by_cases hzero : amount = 0
  · simp only [if_pos hzero, Table.get?_erase]
  · simp only [if_neg hzero, Table.get?_insert]

/-- Setting a balance changes it and no other, whether there is a row for it or not. -/
theorem balanceOf_setBalance (t : PoolToken) (who other : Address) (amount : Amount) :
    (t.setBalance who amount).balanceOf other =
      if other = who then amount else t.balanceOf other := by
  unfold balanceOf Table.getD
  rw [get?_setBalance]
  split
  · split
    · next hzero => rw [hzero, Option.getD_none]
    · rfl
  · rfl

theorem feeOf_le (t : PoolToken) (amount : Amount) : (t.feeOf amount).val ≤ amount.val :=
  fee_le _ _ t.feeBps_le

theorem collect_eq_ok (h : PayoutToken.collect t who amount = (.ok received, t')) :
    received = amount.satSub (t.feeOf amount) ∧
      ∃ pool, t.pool.add? received = some pool ∧
        t' = { t.setBalance who ((t.balanceOf who).satSub amount) with
          pool, burned := t.burned.satAdd (t.feeOf amount) } := by
  obtain ⟨_, -, h⟩ := Result.bind_eq_ok_iff.1 (unlessRefused_eq_ok_iff.1 h)
  obtain ⟨_, -, h⟩ := Result.bind_eq_ok_iff.1 h
  obtain ⟨pool, hpool, h⟩ := Result.bind_eq_ok_iff.1 h
  obtain ⟨rfl, rfl⟩ := Prod.mk.injEq .. ▸ Result.pure_eq_ok_iff.1 h
  exact ⟨rfl, pool, orRefuse_eq_ok_iff.1 hpool, rfl⟩

theorem collect_le (h : PayoutToken.collect t who amount = (.ok received, t')) :
    received ≤ amount := by
  obtain ⟨rfl, -⟩ := collect_eq_ok h
  exact Word.le_def.2 (Nat.sub_le _ _)

theorem transfer_eq_ok (h : PayoutToken.transfer t who amount = (.ok receipt, sent)) :
    receipt = ⟨who, amount, amount.satSub (t.feeOf amount)⟩ ∧ amount ≤ t.pool ∧
      ∃ balance, (t.balanceOf who).add? receipt.received = some balance ∧
        sent = { t.setBalance who balance with
          pool := t.pool.satSub amount
          burned := t.burned.satAdd (t.feeOf amount) } := by
  obtain ⟨_, -, h⟩ := Result.bind_eq_ok_iff.1 (unlessRefused_eq_ok_iff.1 h)
  obtain ⟨_, hpool, h⟩ := Result.bind_eq_ok_iff.1 h
  obtain ⟨balance, hbalance, h⟩ := Result.bind_eq_ok_iff.1 h
  obtain ⟨rfl, rfl⟩ := Prod.mk.injEq .. ▸ Result.pure_eq_ok_iff.1 h
  exact ⟨rfl, require_eq_ok_iff.1 hpool, balance, orRefuse_eq_ok_iff.1 hbalance, rfl⟩

theorem pool_of_collect (h : PayoutToken.collect t who amount = (.ok received, t')) :
    t'.pool.val = t.pool.val + received.val := by
  obtain ⟨-, pool, hpool, rfl⟩ := collect_eq_ok h
  exact (Word.add?_eq_some_iff.1 hpool).symm

theorem pool_of_transfer (h : PayoutToken.transfer t who amount = (.ok receipt, sent)) :
    sent.pool.val + amount.val = t.pool.val := by
  obtain ⟨-, hpool, balance, -, rfl⟩ := transfer_eq_ok h
  exact Nat.sub_add_cancel (Word.le_def.1 hpool)

theorem balanceOf_of_transfer (h : PayoutToken.transfer t who amount = (.ok receipt, sent)) :
    (sent.balanceOf who).val = (t.balanceOf who).val + receipt.received.val := by
  obtain ⟨-, -, balance, hbalance, rfl⟩ := transfer_eq_ok h
  have hheld : (t.setBalance who balance).balanceOf who = balance :=
    (balanceOf_setBalance t who who balance).trans (if_pos rfl)
  change ((t.setBalance who balance).balanceOf who).val = _
  rw [hheld, Word.add?_eq_some_iff.1 hbalance]

theorem revert_of_transfer (h : PayoutToken.transfer t who amount = (.ok receipt, sent)) :
    PayoutToken.revert sent receipt =
      (.ok (), { sent.setBalance who (t.balanceOf who) with
        pool := t.pool
        burned := sent.burned.satSub (t.feeOf amount) }) := by
  obtain ⟨rfl, hpool, balance, hbalance, rfl⟩ := transfer_eq_ok h
  have hfee := t.feeOf_le amount
  rw [Word.le_def] at hpool
  simp only [Word.add?_eq_some_iff] at hbalance
  change unlessRefused _ ((revert _ _).map ((), ·)) = _
  rw [unlessRefused_eq_ok_iff, Result.map_eq_ok_iff]
  refine ⟨_, ?_, rfl⟩
  generalize hsent : { t.setBalance who balance with
    pool := t.pool.satSub amount
    burned := t.burned.satAdd (t.feeOf amount) : PoolToken } = sent
  have hheld : sent.balanceOf who = balance := by
    rw [← hsent]
    exact (balanceOf_setBalance t who who balance).trans (if_pos rfl)
  have hpooled : sent.pool.add? amount = some t.pool := by
    rw [← hsent, Word.add?_eq_some_iff, Word.val_satSub]
    omega
  have hback : balance.satSub (amount.satSub (t.feeOf amount)) = t.balanceOf who := by
    apply Word.ext
    rw [Word.val_satSub]
    omega
  have hlost : TransferReceipt.shortfall ⟨who, amount, amount.satSub (t.feeOf amount)⟩ =
      t.feeOf amount := by
    apply Word.ext
    simp only [TransferReceipt.shortfall, Word.val_satSub]
    omega
  unfold revert
  simp only [hheld, hpooled, hback, hlost]
  have hle : amount.satSub (t.feeOf amount) ≤ balance := by
    rw [Word.le_def]
    omega
  simp [require, hle, orRefuse, pure, Except.pure, bind, Except.bind]

theorem balanceOf_of_revert (h : PayoutToken.transfer t who amount = (.ok receipt, sent))
    {answer : Result Unit} (hback : PayoutToken.revert sent receipt = (answer, t')) :
    t'.balanceOf other = t.balanceOf other := by
  rw [revert_of_transfer h] at hback
  obtain ⟨-, rfl⟩ := Prod.mk.injEq .. ▸ hback
  obtain ⟨-, -, balance, -, rfl⟩ := transfer_eq_ok h
  refine (balanceOf_setBalance _ who other _).trans ?_
  split
  · next hother => rw [hother]
  · next hother => exact (balanceOf_setBalance t who other balance).trans (if_neg hother)

end PoolToken

end Settlement
