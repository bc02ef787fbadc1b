import Settlement.Proofs.Finite
import Settlement.Proofs.Ledger.Settle

namespace Settlement

/-- When the fund of one period is replaced, a total changes by what the two funds differ in. All
but finitely many periods have an empty fund, and there are finitely many numbers of periods, so a
total is a plain sum over all of them. -/
theorem FundBook.sum_set (column : PeriodFund → Nat) (b : FundBook) (p : PeriodId)
    (f : PeriodFund) :
    ∑ q, column ((b.set p f).fund q) + column (b.fund p) = ∑ q, column (b.fund q) + column f := by
  have hself : column ((b.set p f).fund p) = column f := by rw [fund_set, if_pos rfl]
  have hother (q : PeriodId) (hq : q ≠ p) : column ((b.set p f).fund q) = column (b.fund q) := by
    rw [fund_set, if_neg hq]
  rw [← hself]
  exact sum_add_of_eq_off (fun q => column ((b.set p f).fund q)) (fun q => column (b.fund q)) p hother

theorem sum_sumFor (entries : List (PeriodId × Amount)) :
    ∑ p, sumFor entries p = amountSum (entries.map Prod.snd) := by
  induction entries with
  | nil => exact Finset.sum_const_zero
  | cons entry rest ih =>
    simp only [sumFor_cons, Finset.sum_add_distrib, Finset.sum_ite_eq, Finset.mem_univ, if_true, ih,
      List.map_cons, amountSum_cons]

end Settlement
