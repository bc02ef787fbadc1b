import Settlement.Claim.Commit
import Settlement.Claim.Registry
import Settlement.Proofs.Table

namespace Settlement

namespace ClaimRegistry

variable {r : ClaimRegistry} {who claimant : Address} {p period : PeriodId}

theorem hasClaimed_iff : r.hasClaimed who p = true ↔ r.paid.get? ⟨who, p⟩ = some () := by
  unfold hasClaimed
  rw [Table.contains_iff]
  exact ⟨fun ⟨_, h⟩ => h, fun h => ⟨(), h⟩⟩

theorem ext_hasClaimed {a b : ClaimRegistry}
    (h : ∀ who p, a.hasClaimed who p = b.hasClaimed who p) : a = b := by
  have hpaid : a.paid = b.paid := by
    apply Table.ext_get?
    rintro ⟨who, p⟩
    apply Option.ext
    rintro ⟨⟩
    rw [← hasClaimed_iff, ← hasClaimed_iff, h]
  cases a
  cases b
  exact congrArg ClaimRegistry.mk hpaid

/-- The registry that also knows this claim as paid. Marking a claim that is not marked yet comes to
this. -/
def add (r : ClaimRegistry) (claimant : Address) (period : PeriodId) : ClaimRegistry :=
  ⟨r.paid.insert ⟨claimant, period⟩ ()⟩

theorem mark_eq (h : r.hasClaimed claimant period = false) :
    r.mark claimant period = .ok (r.add claimant period) := by
  simp [mark, check, require, h, add, pure, Except.pure, bind, Except.bind]

theorem hasClaimed_add :
    (r.add claimant period).hasClaimed who p = true ↔
      (who = claimant ∧ p = period) ∨ r.hasClaimed who p = true := by
  rw [hasClaimed_iff, hasClaimed_iff, add, Table.get?_insert]
  by_cases h : who = claimant ∧ p = period
  · simp [h]
  · have hne : (⟨who, p⟩ : ClaimKey) ≠ ⟨claimant, period⟩ := fun heq =>
      h (ClaimKey.mk.injEq .. ▸ heq)
    simp [h, hne]

theorem hasClaimed_unmark :
    (r.unmark claimant period).hasClaimed who p = true ↔
      ¬ (who = claimant ∧ p = period) ∧ r.hasClaimed who p = true := by
  rw [hasClaimed_iff, hasClaimed_iff, unmark, Table.get?_erase]
  by_cases h : who = claimant ∧ p = period
  · simp [h]
  · have hne : (⟨who, p⟩ : ClaimKey) ≠ ⟨claimant, period⟩ := fun heq =>
      h (ClaimKey.mk.injEq .. ▸ heq)
    simp [h, hne]

/-- The registry that also knows the claims of one claimant for these periods as paid. -/
def addAll (r : ClaimRegistry) (claimant : Address) (periods : List PeriodId) : ClaimRegistry :=
  periods.foldl (fun r period => r.add claimant period) r

/-- The registry without the marks of one claimant for these periods. -/
def unmarkAll (r : ClaimRegistry) (claimant : Address) (periods : List PeriodId) : ClaimRegistry :=
  periods.foldl (fun r period => r.unmark claimant period) r

theorem hasClaimed_addAll {periods : List PeriodId} :
    (r.addAll claimant periods).hasClaimed who p = true ↔
      (who = claimant ∧ p ∈ periods) ∨ r.hasClaimed who p = true := by
  induction periods generalizing r with
  | nil => simp [addAll]
  | cons period rest ih =>
    change ((r.add claimant period).addAll claimant rest).hasClaimed who p = true ↔ _
    rw [ih, hasClaimed_add, List.mem_cons]
    grind

theorem hasClaimed_unmarkAll {periods : List PeriodId} :
    (r.unmarkAll claimant periods).hasClaimed who p = true ↔
      ¬ (who = claimant ∧ p ∈ periods) ∧ r.hasClaimed who p = true := by
  induction periods generalizing r with
  | nil => simp [unmarkAll]
  | cons period rest ih =>
    change ((r.unmark claimant period).unmarkAll claimant rest).hasClaimed who p = true ↔ _
    rw [ih, hasClaimed_unmark, List.mem_cons]
    grind

theorem unmarkAll_addAll {periods : List PeriodId}
    (hfree : ∀ p ∈ periods, r.hasClaimed claimant p = false) :
    (r.addAll claimant periods).unmarkAll claimant periods = r := by
  apply ext_hasClaimed
  intro who p
  rw [Bool.eq_iff_iff, hasClaimed_unmarkAll, hasClaimed_addAll]
  constructor
  · rintro ⟨hnot, hadded | hold⟩
    · exact absurd hadded hnot
    · exact hold
  · intro hold
    refine ⟨?_, Or.inr hold⟩
    rintro ⟨rfl, hmem⟩
    rw [hfree p hmem] at hold
    cases hold

end ClaimRegistry

namespace CommitBook

/-- The book without the open commitments of one claimant for these periods. -/
def removeAll (b : CommitBook) (claimant : Address) (periods : List PeriodId) : CommitBook :=
  periods.foldl (fun b period => b.remove claimant period) b

theorem get?_commit (b : CommitBook) (claimant who : Address) (period p : PeriodId)
    (entry : ClaimCommit) :
    (b.commit claimant period entry).get? who p =
      if who = claimant ∧ p = period then some entry else b.get? who p := by
  unfold get? commit
  rw [Table.get?_insert]
  simp only [ClaimKey.mk.injEq]

theorem get?_remove (b : CommitBook) (claimant who : Address) (period p : PeriodId) :
    (b.remove claimant period).get? who p =
      if who = claimant ∧ p = period then none else b.get? who p := by
  unfold get? remove
  rw [Table.get?_erase]
  simp only [ClaimKey.mk.injEq]

theorem get?_removeAll (b : CommitBook) (claimant who : Address) (periods : List PeriodId)
    (p : PeriodId) :
    (b.removeAll claimant periods).get? who p =
      if who = claimant ∧ p ∈ periods then none else b.get? who p := by
  induction periods generalizing b with
  | nil => simp [removeAll]
  | cons period rest ih =>
    change ((b.remove claimant period).removeAll claimant rest).get? who p = _
    rw [ih, get?_remove]
    by_cases hwho : who = claimant
    · by_cases hhead : p = period
      · simp [hwho, hhead]
      · simp [hwho, hhead]
    · simp [hwho]

end CommitBook

end Settlement
