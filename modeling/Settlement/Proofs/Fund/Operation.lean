import Settlement.Proofs.Fund.Change

namespace Settlement

theorem PeriodFund.val_remaining (f : PeriodFund) :
    f.remaining.val = f.deposited.val - f.claimed.val - f.swept.val := rfl

namespace FundBook

variable {b : FundBook} {p : PeriodId} {f : PeriodFund} {amount received total loss : Amount}
  {now : Timestamp}

/-- A period that holds something has a row, since a period without one has the empty fund. -/
theorem get?_eq_some_fund (h : b.fund p ≠ {}) : b.get? p = some (b.fund p) := by
  cases hget : b.get? p with
  | none =>
    have hempty : b.fund p = {} := by
      change (b.get? p).getD {} = {}
      rw [hget, Option.getD_none]
    exact absurd hempty h
  | some f => rw [fund_of_get? hget]

/-- A claim that what remains can pay for is reserved from a row that exists, and the claims of the
period stay within its deposits. -/
theorem get?_of_le_remaining (hpos : amount ≠ 0) (hle : amount ≤ b.remaining p) :
    ∃ f, b.get? p = some f ∧ f.claimed.val + f.swept.val + amount.val ≤ f.deposited.val := by
  have hamount := Word.pos_of_ne_zero hpos
  have hremaining : amount.val ≤ (b.fund p).remaining.val := Word.le_def.1 hle
  rw [PeriodFund.val_remaining] at hremaining
  refine ⟨b.fund p, get?_eq_some_fund fun hempty => ?_, by omega⟩
  rw [hempty] at hremaining
  simp only [Word.val_zero] at hremaining
  omega

theorem update_of_ok {α : Type} {change : PeriodFund → Result (α × PeriodFund)} {answer : α}
    (h : change (b.fund p) = .ok (answer, f)) : b.update p change = (.ok answer, b.set p f) := by
  unfold update
  simp only [h]

/-- A change that is refused opens the row of its period, if there is none, and leaves all else as
it is. -/
theorem update_of_error {α : Type} {change : PeriodFund → Result (α × PeriodFund)} {e : Error}
    (h : change (b.fund p) = .error e) : b.update p change = (.error e, b.set p (b.fund p)) := by
  unfold update
  simp only [h]

theorem reserveClaim_eq (hget : b.get? p = some f)
    (hroom : f.claimed.val + f.swept.val + amount.val ≤ f.deposited.val) :
    b.reserveClaim p amount = (.ok (), b.modify p (.charge amount)) := by
  have hle : amount ≤ f.remaining := by
    rw [Word.le_def, PeriodFund.val_remaining]
    omega
  have hfits : f.claimed.val + amount.val < 2 ^ 128 := by
    have := f.deposited.isLt
    omega
  rw [modify_of_get? hget]
  apply update_of_ok
  rw [fund_of_get? hget, Word.add?_of_lt hfits]
  simp [require, hle, orRefuse, PeriodFund.charge, pure, Except.pure]

theorem recordPrecisionLoss_eq (hget : b.get? p = some f)
    (hfits : f.precisionLoss.val + loss.val < 2 ^ 128) :
    b.recordPrecisionLoss p loss = (.ok (), b.modify p (.bear loss)) := by
  rw [modify_of_get? hget]
  apply update_of_ok
  rw [fund_of_get? hget, PeriodFund.bear, Word.add?_of_lt hfits]
  rfl

/-- A loss without room is refused without a trace, since a claimed period has a row. -/
theorem recordPrecisionLoss_eq_of_no_room (hget : b.get? p = some f)
    (hfull : 2 ^ 128 ≤ f.precisionLoss.val + loss.val) :
    b.recordPrecisionLoss p loss = (.error (.overflow "precision loss"), b) := by
  have hset : b.set p (b.fund p) = b := by rw [fund_of_get? hget, set_eq_self hget]
  rw [← congrArg (Prod.mk _) hset]
  apply update_of_error
  rw [fund_of_get? hget, Word.add?_eq_none_iff.2 hfull]
  rfl

theorem recordDeposit_eq (h : (b.fund p).deposited.add? received = some total) :
    b.recordDeposit p received now =
      (.ok (), b.set p { b.fund p with deposited := total, lastDepositAt := some now }) := by
  apply update_of_ok
  rw [h]
  rfl

/-- A deposit without room is refused. The period may have a row from then on, of an empty fund. -/
theorem recordDeposit_eq_of_no_room (h : (b.fund p).deposited.add? received = none) :
    b.recordDeposit p received now = (.error (.overflow "period deposit"), b.set p (b.fund p)) := by
  apply update_of_error
  rw [h]
  rfl

theorem recordSweep_eq (h : (b.fund p).isSwept = false) :
    b.recordSweep p now =
      (.ok (b.fund p).remaining,
        b.set p { b.fund p with swept := (b.fund p).remaining, sweptAt := some now }) := by
  apply update_of_ok
  simp [require, h, pure, Except.pure]

/-- A second sweep is refused without a trace, since a period that was swept has a row. -/
theorem recordSweep_eq_of_isSwept (h : (b.fund p).isSwept = true) :
    b.recordSweep p now = (.error (.alreadySwept p), b) := by
  have hne : b.fund p ≠ {} := by
    intro hempty
    rw [hempty] at h
    cases h
  have hset : b.set p (b.fund p) = b := set_eq_self (get?_eq_some_fund hne)
  rw [← congrArg (Prod.mk _) hset]
  apply update_of_error
  simp only [require, h, not_true_eq_false, if_false]
  rfl

theorem set_set (b : FundBook) (p : PeriodId) (f g : PeriodFund) :
    (b.set p f).set p g = b.set p g := by
  apply ext_get?
  intro q
  rw [get?_set, get?_set, get?_set]
  split <;> rfl

theorem releaseSweep_set (b : FundBook) (p : PeriodId) (f : PeriodFund) :
    (b.set p f).releaseSweep p = b.set p { f with swept := 0, sweptAt := none } := by
  have hget : (b.set p f).get? p = some f := by rw [get?_set, if_pos rfl]
  unfold releaseSweep
  rw [modify_of_get? hget, set_set]

end FundBook

end Settlement
