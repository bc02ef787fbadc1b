import Mathlib.Algebra.Group.Nat.Defs
import Settlement.Proofs.Token.Pool

namespace Settlement.PoolToken

variable {t sent : PoolToken} {who : Address} {amount : Amount} {receipt : TransferReceipt}

/-- The pool can pay this much to the address: it has it, the balance has room for it, and movements
do not fail. -/
structure CanPay (t : PoolToken) (who : Address) (n : Nat) : Prop where
  live : t.failing = false
  pooled : n ≤ t.pool.val
  fits : (t.balanceOf who).val + n < 2 ^ 128

/-- The token after a payment without a fee: what leaves the pool arrives in full. -/
def pay (t : PoolToken) (who : Address) (amount : Amount) : PoolToken :=
  { t.setBalance who ((t.balanceOf who).satAdd amount) with pool := t.pool.satSub amount }

theorem feeOf_eq_zero (hfree : t.feeBps = 0) (amount : Amount) : t.feeOf amount = 0 := by
  apply Word.ext
  simp [feeOf, hfree]

/-- Without a fee a transfer is made exactly if the pool can pay it, and all of it arrives. -/
theorem transfer_eq_ok_iff (hfree : t.feeBps = 0) :
    PayoutToken.transfer t who amount = (.ok receipt, sent) ↔
      t.CanPay who amount.val ∧ receipt = ⟨who, amount, amount⟩ ∧ sent = t.pay who amount := by
  have hnone : amount.satSub 0 = amount := Word.ext (Nat.sub_zero _)
  have hburned : t.burned.satAdd 0 = t.burned := Word.ext (Word.val_satAdd_of_lt t.burned.isLt)
  constructor
  · intro h
    obtain ⟨hreceipt, hpooled, balance, hbalance, hsent⟩ := transfer_eq_ok h
    obtain ⟨_, hlive, -⟩ := Result.bind_eq_ok_iff.1 (unlessRefused_eq_ok_iff.1 h)
    rw [checkLive, require_eq_ok_iff, Bool.not_eq_true] at hlive
    rw [feeOf_eq_zero hfree, hnone] at hreceipt
    rw [hreceipt] at hbalance
    have hfits := Word.add?_eq_some_iff.1 hbalance
    simp only at hfits
    have hlt := balance.isLt
    have hfits : (t.balanceOf who).val + amount.val < 2 ^ 128 := by omega
    rw [Word.add?_of_lt hfits, Option.some_inj] at hbalance
    rw [feeOf_eq_zero hfree, hburned, ← hbalance] at hsent
    exact ⟨⟨hlive, hpooled, hfits⟩, hreceipt, hsent⟩
  · rintro ⟨⟨hlive, hpooled, hfits⟩, rfl, rfl⟩
    refine unlessRefused_eq_ok_iff.2 (Result.bind_eq_ok_iff.2 ⟨(), ?_, ?_⟩)
    · rw [checkLive, require_eq_ok_iff, Bool.not_eq_true]
      exact hlive
    · refine Result.bind_eq_ok_iff.2 ⟨(), require_eq_ok_iff.2 hpooled, ?_⟩
      simp only [feeOf_eq_zero hfree, hnone, hburned]
      rw [Word.add?_of_lt hfits]
      rfl

theorem balanceOf_pay (t : PoolToken) (who : Address) (amount : Amount) :
    (t.pay who amount).balanceOf who = (t.balanceOf who).satAdd amount :=
  (balanceOf_setBalance t who who _).trans (if_pos rfl)

theorem canPay_add_iff {n : Nat} :
    t.CanPay who (amount.val + n) ↔ t.CanPay who amount.val ∧ (t.pay who amount).CanPay who n := by
  have hpool : (t.pay who amount).pool.val = t.pool.val - amount.val := rfl
  constructor
  · rintro ⟨hlive, hpooled, hfits⟩
    have hbalance : ((t.balanceOf who).satAdd amount).val = (t.balanceOf who).val + amount.val :=
      Word.val_satAdd_of_lt (by omega)
    refine ⟨⟨hlive, by omega, by omega⟩, hlive, by omega, ?_⟩
    rw [balanceOf_pay, hbalance]
    omega
  · rintro ⟨⟨hlive, hpooled, hfits⟩, -, hpooled', hfits'⟩
    rw [balanceOf_pay, Word.val_satAdd_of_lt hfits] at hfits'
    exact ⟨hlive, by omega, by omega⟩

theorem pay_pay (t : PoolToken) (who : Address) (first second : Amount) :
    (t.pay who first).pay who second = t.pay who (first.satAdd second) := by
  have hbalance : ((t.balanceOf who).satAdd first).satAdd second =
      (t.balanceOf who).satAdd (first.satAdd second) := by
    apply Word.ext
    simp only [Word.val_satAdd]
    omega
  have hpool : (t.pool.satSub first).satSub second = t.pool.satSub (first.satAdd second) := by
    have := t.pool.isLt
    apply Word.ext
    simp only [Word.val_satSub, Word.val_satAdd]
    omega
  have hbalances : ((t.pay who first).pay who second).balances =
      (t.pay who (first.satAdd second)).balances := by
    apply Table.ext_get?
    intro other
    change ((t.pay who first).setBalance who _).balances.get? other =
      (t.setBalance who _).balances.get? other
    rw [get?_setBalance, get?_setBalance, balanceOf_pay, hbalance]
    split
    · rfl
    · next hother =>
      change (t.setBalance who _).balances.get? other = _
      rw [get?_setBalance, if_neg hother]
  unfold pay at hbalances ⊢
  simp only [PoolToken.mk.injEq]
  exact ⟨hbalances, hpool, rfl, rfl, rfl⟩

/-- The token after several payments to one address. One payment does the same as several that add
up to it, and is possible exactly when they are. -/
def payAll (t : PoolToken) (who : Address) (amounts : List Amount) : PoolToken :=
  amounts.foldl (fun t amount => t.pay who amount) t

private theorem payAll_cons (t : PoolToken) (who : Address) (amount : Amount)
    (rest : List Amount) :
    t.payAll who (amount :: rest) = t.pay who (rest.foldl Word.satAdd amount) := by
  induction rest generalizing amount with
  | nil => rfl
  | cons next rest ih =>
    calc t.payAll who (amount :: next :: rest)
        = ((t.pay who amount).pay who next).payAll who rest := rfl
      _ = t.payAll who (amount.satAdd next :: rest) := by rw [pay_pay]; rfl
      _ = t.pay who (rest.foldl Word.satAdd (amount.satAdd next)) := ih _

theorem payAll_eq {amounts : List Amount} (hne : amounts ≠ []) :
    t.payAll who amounts = t.pay who (amounts.foldl Word.satAdd 0) := by
  obtain ⟨amount, rest, rfl⟩ := List.exists_cons_of_ne_nil hne
  have hzero : (0 : Amount).satAdd amount = amount := by
    have := amount.isLt
    apply Word.ext
    rw [Word.val_satAdd, Word.val_zero]
    omega
  rw [payAll_cons, List.foldl_cons, hzero]

end Settlement.PoolToken
