import Settlement.Proofs.Ledger.Reveal

namespace Settlement

/-- What the claimant got and what was lost make up the amount. -/
def ClaimReceipt.Balanced (receipt : ClaimReceipt) : Prop :=
  receipt.received.val + receipt.precisionLoss.val = receipt.amount.val

instance (receipt : ClaimReceipt) : Decidable receipt.Balanced :=
  inferInstanceAs (Decidable (_ = _))

/-- What the rounded-down shares of the other claims leave of the loss is within the amount of the
last claim. -/
def BatchClaimReceipt.RemainderFits (batch : BatchClaimReceipt) : Prop :=
  let lost := batch.sent.val - batch.received.val
  let amounts := batch.claims.map (·.amount.val)
  lost ≤ (amounts.dropLast.map fun amount => lost * amount / batch.sent.val).sum +
    amounts.getLast?.getD 0

instance (batch : BatchClaimReceipt) : Decidable batch.RemainderFits :=
  inferInstanceAs (Decidable (_ ≤ _))

namespace Ledger

variable {entries : List ClaimEntry} {losses : List Amount} {receipt : TransferReceipt}
  {total : Amount}

private theorem val_of_mem_zip {amounts : List Amount} {f : Amount → Nat}
    (h : losses.map Word.val = amounts.map f) {pair : Amount × Amount}
    (hmem : pair ∈ amounts.zip losses) : pair.2.val = f pair.1 := by
  induction amounts generalizing losses with
  | nil => cases hmem
  | cons amount rest ih =>
    cases losses with
    | nil => cases hmem
    | cons loss losses =>
      rw [List.map_cons, List.map_cons, List.cons.injEq] at h
      rcases List.mem_cons.1 hmem with rfl | hmem
      · exact h.1
      · exact ih h.2 hmem

/-- Loss by loss, shares are within their amounts as soon as the last one is. All shares but the
last are rounded down from parts of a loss that is no larger than the total; the last claim takes
every remainder, and there may be more of them than its amount can bear. -/
private theorem shares_le_iff {amounts : List Amount} {shortfall : Amount} (hne : amounts ≠ [])
    (hlosses : losses.map Word.val = floorShares shortfall total amounts.dropLast ++
      [shortfall.val - (floorShares shortfall total amounts.dropLast).sum])
    (hle : shortfall.val ≤ total.val) :
    (∀ pair ∈ amounts.zip losses, pair.2.val ≤ pair.1.val) ↔
      shortfall.val ≤ (floorShares shortfall total amounts.dropLast).sum +
        (amounts.getLast hne).val := by
  obtain ⟨others, last, rfl, hothers, hlast⟩ := List.map_eq_append_iff.1 hlosses
  obtain ⟨rest, rfl, hrest⟩ := List.map_eq_singleton_iff.1 hlast
  have hlength : amounts.dropLast.length = others.length := by
    have hlength := congrArg List.length hothers
    rw [floorShares, List.length_map, List.length_map] at hlength
    exact hlength.symm
  have hzip : amounts.zip (others ++ [rest]) =
      amounts.dropLast.zip others ++ [(amounts.getLast hne, rest)] := by
    calc amounts.zip (others ++ [rest])
        = (amounts.dropLast ++ [amounts.getLast hne]).zip (others ++ [rest]) := by
          rw [List.dropLast_concat_getLast]
      _ = amounts.dropLast.zip others ++ [(amounts.getLast hne, rest)] := List.zip_append hlength
  have hwithin : ∀ pair ∈ amounts.dropLast.zip others, pair.2.val ≤ pair.1.val := by
    intro pair hmem
    rw [val_of_mem_zip hothers hmem]
    exact Nat.div_le_of_le_mul (Nat.mul_le_mul_right _ hle)
  rw [hzip]
  constructor
  · intro hall
    have hbound := hall _ (List.mem_append_right _ (List.mem_singleton.2 rfl))
    simp only at hbound
    omega
  · intro hfits pair hmem
    rcases List.mem_append.1 hmem with hmem | hmem
    · exact hwithin pair hmem
    · rw [List.mem_singleton.1 hmem]
      simp only
      omega

/-- A claim of a batch gets what its loss leaves of the amount, so it is balanced if the loss is no
larger. -/
private theorem forall_balanced_iff (who : Address) :
    (∀ claim ∈ (batchReceipt who entries (receipt, losses)).claims, claim.Balanced) ↔
      ∀ pair ∈ (entries.map ClaimEntry.amount).zip losses, pair.2.val ≤ pair.1.val := by
  unfold batchReceipt ClaimReceipt.Balanced
  simp only [List.zip_map_left, List.forall_mem_map, Word.val_satSub, Prod.map_fst, Prod.map_snd,
    id_eq]
  constructor
  · intro h pair hmem
    have := h pair hmem
    omega
  · intro h pair hmem
    have := h pair hmem
    omega

/-- The claims of a paid batch are balanced exactly when the last one can bear the remainders. -/
theorem balanced_iff_remainderFits (who : Address)
    (hlosses : apportion receipt.shortfall (entries.map ClaimEntry.amount) total = .ok losses)
    (htotal : IsTotal (entries.map ClaimEntry.reservation) total) (hsent : receipt.sent = total) :
    (∀ claim ∈ (batchReceipt who entries (receipt, losses)).claims, claim.Balanced) ↔
      (batchReceipt who entries (receipt, losses)).RemainderFits := by
  have hlength := length_of_apportion_entries htotal hlosses
  rw [List.length_map] at hlength
  have hne := htotal.map_snd_ne_nil
  have hsum := htotal.sum
  rw [List.map_map] at hne hsum
  change entries.map ClaimEntry.amount ≠ [] at hne
  have hvalues := (apportion_eq_ok hne hsum htotal.val_pos hlosses).1
  have hshortfall : receipt.shortfall.val = receipt.sent.val - receipt.received.val := rfl
  have hamounts : (batchReceipt who entries (receipt, losses)).claims.map (·.amount.val) =
      (entries.map ClaimEntry.amount).map Word.val := by
    rw [List.map_map]
    exact map_claims_batchReceipt who receipt hlength fun _ _ => rfl
  have hshares : floorShares receipt.shortfall total (entries.map ClaimEntry.amount).dropLast =
      ((entries.map ClaimEntry.amount).map Word.val).dropLast.map fun amount =>
        (receipt.sent.val - receipt.received.val) * amount / receipt.sent.val := by
    simp only [floorShares, hshortfall, hsent, ← List.map_dropLast, List.map_map]
    rfl
  rw [forall_balanced_iff,
    shares_le_iff hne hvalues (by rw [hshortfall, hsent]; exact Nat.sub_le _ _)]
  unfold BatchClaimReceipt.RemainderFits
  simp only [hamounts, List.getLast?_map, List.getLast?_eq_some_getLast hne, Option.map_some,
    Option.getD_some]
  rw [hshares]
  rfl

end Ledger

end Settlement
