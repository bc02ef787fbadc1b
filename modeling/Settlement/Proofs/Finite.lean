import Mathlib.Algebra.BigOperators.Group.Finset.Piecewise
import Mathlib.Data.Fintype.Basic
import Settlement.Identity

namespace Settlement

/-- There are finitely many words, and with them finitely many periods and addresses. What all of
them have together is a plain sum. -/
instance {w : Nat} : Fintype (Word w) :=
  .ofEquiv (Fin (2 ^ w))
    ⟨fun i => ⟨i.val, i.isLt⟩, fun a => ⟨a.val, a.isLt⟩, fun _ => rfl, fun _ => rfl⟩

instance : Fintype PeriodId :=
  .ofEquiv (Word 64) ⟨PeriodId.mk, PeriodId.number, fun _ => rfl, fun _ => rfl⟩

instance : Fintype Address :=
  .ofEquiv (Word 256) ⟨Address.mk, Address.key, fun _ => rfl, fun _ => rfl⟩

/-- When one entry of a table of numbers is replaced, the total changes by what the two differ in.
Sums over all periods are followed through a step by this, as a step moves the amounts of a
period. -/
theorem sum_add_of_eq_off {ι : Type} [Fintype ι] [DecidableEq ι] (f g : ι → Nat) (i : ι)
    (h : ∀ j, j ≠ i → f j = g j) : ∑ j, f j + g i = ∑ j, g j + f i := by
  have hothers : ∑ j ∈ Finset.univ.erase i, f j = ∑ j ∈ Finset.univ.erase i, g j :=
    Finset.sum_congr rfl fun j hj => h j (Finset.ne_of_mem_erase hj)
  rw [← Finset.add_sum_erase _ _ (Finset.mem_univ i),
    ← Finset.add_sum_erase _ _ (Finset.mem_univ i), hothers]
  omega

end Settlement
