import Settlement.Proofs.Ledger.Payout

namespace Settlement

/-- What entries say about one period, added up without a width. A period can be named more than
once. -/
def sumFor (entries : List (PeriodId × Amount)) (p : PeriodId) : Nat :=
  amountSum ((entries.filter fun entry => entry.1 = p).map Prod.snd)

section sumFor

variable {entries : List (PeriodId × Amount)} {p : PeriodId}

theorem sumFor_cons (entry : PeriodId × Amount) (entries : List (PeriodId × Amount))
    (p : PeriodId) :
    sumFor (entry :: entries) p = (if entry.1 = p then entry.2.val else 0) + sumFor entries p := by
  unfold sumFor
  by_cases h : entry.1 = p
  · simp [h]
  · simp [h]

theorem sumFor_append (first second : List (PeriodId × Amount)) (p : PeriodId) :
    sumFor (first ++ second) p = sumFor first p + sumFor second p := by
  simp [sumFor]

theorem sumFor_of_not_mem (h : p ∉ entries.map Prod.fst) : sumFor entries p = 0 := by
  induction entries with
  | nil => rfl
  | cons entry rest ih =>
    rw [List.map_cons, List.mem_cons, not_or] at h
    rw [sumFor_cons, if_neg (Ne.symm h.1), ih h.2]

/-- A payout has at most one claim for a period, so the sum over its claims is that one amount. -/
theorem sumFor_of_mem {amount : Amount} (hnodup : (entries.map Prod.fst).Nodup)
    (hmem : (p, amount) ∈ entries) : sumFor entries p = amount.val := by
  induction entries with
  | nil => cases hmem
  | cons entry rest ih =>
    rw [List.map_cons, List.nodup_cons] at hnodup
    rw [sumFor_cons]
    rcases List.mem_cons.1 hmem with rfl | hrest
    · rw [if_pos rfl, sumFor_of_not_mem hnodup.1, Nat.add_zero]
    · have hne : entry.1 ≠ p := fun heq =>
        hnodup.1 (heq ▸ List.mem_map_of_mem (f := Prod.fst) hrest)
      rw [if_neg hne, Nat.zero_add, ih hnodup.2 hrest]

end sumFor

namespace Ledger

open FundBook

variable {τ : Type} {l : Ledger τ} {who claimant : Address} {reserved : List Reservation}
  {losses : List Amount} {token : τ} {p : PeriodId} {amount : Amount}

theorem Payable.claimed_add_le (h : Payable l who reserved) (hmem : (p, amount) ∈ reserved) :
    (l.funds.fund p).claimed.val + (l.funds.fund p).swept.val + amount.val ≤
      (l.funds.fund p).deposited.val := by
  obtain ⟨f, hget, hroom⟩ := h.covered _ hmem
  rw [fund_of_get? hget]
  exact hroom

theorem get?_settle_of_not_mem (hp : p ∉ reserved.map Prod.fst) :
    (l.settle who reserved losses token).funds.get? p = l.funds.get? p := by
  have hp' : p ∉ ((reserved.map Prod.fst).zip losses).map Prod.fst := fun hmem => by
    obtain ⟨entry, hentry, rfl⟩ := List.mem_map.1 hmem
    exact hp (List.of_mem_zip hentry).1
  change (modifyAll PeriodFund.bear (modifyAll PeriodFund.charge l.funds reserved) _).get? p = _
  rw [get?_modifyAll_of_not_mem hp', get?_modifyAll_of_not_mem hp]

theorem fund_settle_of_not_mem (hp : p ∉ reserved.map Prod.fst) :
    (l.settle who reserved losses token).funds.fund p = l.funds.fund p := by
  change ((l.settle who reserved losses token).funds.get? p).getD {} = _
  rw [get?_settle_of_not_mem hp]
  rfl

theorem get?_settle_of_mem (h : Payable l who reserved) (hlength : losses.length = reserved.length)
    (token : τ) (hmem : (p, amount) ∈ reserved) :
    ∃ f loss, l.funds.get? p = some f ∧
      sumFor ((reserved.map Prod.fst).zip losses) p = loss.val ∧
      (l.settle who reserved losses token).funds.get? p = some ((f.charge amount).bear loss) := by
  have hfst : ((reserved.map Prod.fst).zip losses).map Prod.fst = reserved.map Prod.fst :=
    List.map_fst_zip (by simp [hlength])
  have hnodup : (((reserved.map Prod.fst).zip losses).map Prod.fst).Nodup := by
    rw [hfst]
    exact h.nodup
  have hp : p ∈ ((reserved.map Prod.fst).zip losses).map Prod.fst := by
    rw [hfst]
    exact List.mem_map_of_mem (f := Prod.fst) hmem
  obtain ⟨⟨q, loss⟩, hloss, heq⟩ := List.mem_map.1 hp
  obtain rfl : q = p := heq
  obtain ⟨f, hget, -⟩ := h.covered _ hmem
  refine ⟨f, loss, hget, sumFor_of_mem hnodup hloss, ?_⟩
  change (modifyAll PeriodFund.bear (modifyAll PeriodFund.charge l.funds reserved) _).get? q = _
  rw [get?_modifyAll_of_mem hnodup hloss, get?_modifyAll_of_mem h.nodup hmem, hget]
  rfl

theorem fund_settle_of_mem (h : Payable l who reserved) (hlength : losses.length = reserved.length)
    (token : τ) (hmem : (p, amount) ∈ reserved) :
    ∃ loss, sumFor ((reserved.map Prod.fst).zip losses) p = loss.val ∧
      (l.settle who reserved losses token).funds.fund p =
        ((l.funds.fund p).charge amount).bear loss := by
  obtain ⟨f, loss, hget, hloss, hsettle⟩ := get?_settle_of_mem h hlength token hmem
  refine ⟨loss, hloss, ?_⟩
  rw [fund_of_get? hget, fund_of_get? hsettle]

theorem val_claimed_settle (h : Payable l who reserved) (hlength : losses.length = reserved.length)
    (token : τ) (p : PeriodId) :
    ((l.settle who reserved losses token).funds.fund p).claimed.val =
      (l.funds.fund p).claimed.val + sumFor reserved p := by
  by_cases hp : p ∈ reserved.map Prod.fst
  · obtain ⟨⟨q, amount⟩, hmem, rfl⟩ := List.mem_map.1 hp
    obtain ⟨loss, -, hfund⟩ := fund_settle_of_mem h hlength token hmem
    rw [hfund, sumFor_of_mem h.nodup hmem]
    have hroom := h.claimed_add_le hmem
    have := (l.funds.fund q).deposited.isLt
    exact Word.val_satAdd_of_lt (by omega)
  · rw [fund_settle_of_not_mem hp, sumFor_of_not_mem hp, Nat.add_zero]

/-- The loss of a period is counted in full or, where there is no room for it, not at all. -/
theorem val_precisionLoss_settle (h : Payable l who reserved)
    (hlength : losses.length = reserved.length) (token : τ) (p : PeriodId) :
    ((l.settle who reserved losses token).funds.fund p).precisionLoss.val =
      if (l.funds.fund p).precisionLoss.val + sumFor ((reserved.map Prod.fst).zip losses) p < 2 ^ 128
      then (l.funds.fund p).precisionLoss.val + sumFor ((reserved.map Prod.fst).zip losses) p
      else (l.funds.fund p).precisionLoss.val := by
  by_cases hp : p ∈ reserved.map Prod.fst
  · obtain ⟨⟨q, amount⟩, hmem, rfl⟩ := List.mem_map.1 hp
    obtain ⟨loss, hloss, hfund⟩ := fund_settle_of_mem h hlength token hmem
    rw [hfund, hloss]
    exact PeriodFund.val_precisionLoss_bear _ _
  · have hzip : sumFor ((reserved.map Prod.fst).zip losses) p = 0 := by
      apply sumFor_of_not_mem
      rw [List.map_fst_zip (by simp [hlength])]
      exact hp
    rw [fund_settle_of_not_mem hp, hzip, Nat.add_zero, if_pos (Word.isLt _)]

theorem val_precisionLoss_settle_of_room (h : Payable l who reserved)
    (hlength : losses.length = reserved.length)
    (hroom : l.funds.HasRoom ((reserved.map Prod.fst).zip losses)) (token : τ) (p : PeriodId) :
    ((l.settle who reserved losses token).funds.fund p).precisionLoss.val =
      (l.funds.fund p).precisionLoss.val + sumFor ((reserved.map Prod.fst).zip losses) p := by
  rw [val_precisionLoss_settle h hlength token p, if_pos]
  have hfst : ((reserved.map Prod.fst).zip losses).map Prod.fst = reserved.map Prod.fst :=
    List.map_fst_zip (by simp [hlength])
  by_cases hp : p ∈ ((reserved.map Prod.fst).zip losses).map Prod.fst
  · obtain ⟨entry, hmem, rfl⟩ := List.mem_map.1 hp
    rw [sumFor_of_mem (by rw [hfst]; exact h.nodup) hmem]
    exact hroom entry hmem
  · rw [sumFor_of_not_mem hp]
    exact Word.isLt _

theorem hasClaimed_settle :
    (l.settle who reserved losses token).hasClaimed claimant p = true ↔
      (claimant = who ∧ p ∈ reserved.map Prod.fst) ∨ l.hasClaimed claimant p = true :=
  ClaimRegistry.hasClaimed_addAll

theorem get?_commits_settle :
    (l.settle who reserved losses token).commits.get? claimant p =
      if claimant = who ∧ p ∈ reserved.map Prod.fst then none else l.commits.get? claimant p :=
  CommitBook.get?_removeAll ..

theorem registry_settle_ne (h : Payable l who reserved) (hne : reserved ≠ []) :
    (l.settle who reserved losses token).registry ≠ l.registry := by
  intro hsame
  obtain ⟨claim, hclaim⟩ := List.exists_mem_of_ne_nil _ hne
  have hmarked : (l.settle who reserved losses token).hasClaimed who claim.1 = true :=
    hasClaimed_settle.2 (Or.inl ⟨rfl, List.mem_map_of_mem hclaim⟩)
  have hfree := h.unclaimed claim hclaim
  unfold hasClaimed at hmarked hfree
  rw [hsame, hfree] at hmarked
  cases hmarked

end Ledger

end Settlement
