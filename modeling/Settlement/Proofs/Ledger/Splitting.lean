import Mathlib.Algebra.Order.BigOperators.Group.List
import Mathlib.Algebra.Order.Group.Nat
import Settlement.Proofs.Ledger.Slippage

namespace Settlement.Ledger

/-- The amount of a payout arrives: the token sends it, what is lost on the way is within the limit,
and there is room for the losses. -/
structure Arrives {τ : Type} [PayoutToken τ] (l : Ledger τ) (who : Address)
    (reserved : List Reservation) (total : Amount) (receipt : TransferReceipt) : Prop where
  sent : (PayoutToken.transfer l.token who total).1 = .ok receipt
  within : l.checkSlippage receipt = .ok ()
  room : l.funds.HasRoom
    ((reserved.map Prod.fst).zip (shares receipt.shortfall (reserved.map Prod.snd)))

private theorem exists_map_eq_ok_iff {α β τ : Type} {kind : β → Answer} {f : α → β}
    {outcome : Outcome τ α} :
    (∃ b, (Outcome.map (kind ∘ f) outcome).1 = .ok (kind b)) ↔ ∃ a, outcome.1 = .ok a := by
  obtain ⟨result, l'⟩ := outcome
  cases result with
  | error e => simp [Outcome.map, Except.map]
  | ok a => exact ⟨fun _ => ⟨a, rfl⟩, fun _ => ⟨f a, rfl⟩⟩

section token

variable {τ : Type} [PayoutToken τ] {l : Ledger τ} {who : Address} {reserved : List Reservation}
  {total : Amount} {receipt : TransferReceipt}

private theorem Arrives.assess_eq (h : l.Arrives who reserved total receipt)
    (htotal : IsTotal reserved total) :
    l.assess reserved total receipt =
      apportion receipt.shortfall (reserved.map Prod.snd) total := by
  unfold assess
  rw [h.within, Result.ok_bind]
  cases hsplit : apportion receipt.shortfall (reserved.map Prod.snd) total with
  | error e => rfl
  | ok losses =>
    have hroom := h.room
    rw [shares_of_apportion htotal.sum hsplit] at hroom
    rw [Result.ok_bind, require, if_pos hroom]
    rfl

private theorem Arrives.eq_receipt (h : l.Arrives who reserved total receipt)
    {paid : Result TransferReceipt} {token : τ}
    (hsent : PayoutToken.transfer l.token who total = (paid, token)) : paid = .ok receipt :=
  (congrArg Prod.fst hsent).symm.trans h.sent

/-- A payout whose amount arrives stands exactly if its loss can be split. -/
theorem Arrives.exists_payOut_iff (h : l.Arrives who reserved total receipt)
    (htotal : IsTotal reserved total) :
    (∃ paid, (l.payOut who reserved total).1 = .ok paid) ↔
      Splittable receipt.shortfall (reserved.map Prod.snd) := by
  rw [← exists_apportion_iff, ← h.assess_eq htotal]
  have hpaid := paidOut l who reserved total
  generalize l.payOut who reserved total = outcome at hpaid
  cases hpaid with
  | unsent hsent => cases h.eq_receipt hsent
  | takenBack hsent hcause =>
    cases h.eq_receipt hsent
    simp [hcause]
  | kept hsent hcause =>
    cases h.eq_receipt hsent
    simp [hcause]
  | accepted hsent hlosses =>
    cases h.eq_receipt hsent
    simp [hlosses]

/-- The loss of one claim is not multiplied, so a single claim is paid once its amount arrives. -/
theorem Arrives.exists_claim {ctx : CallContext} {entry : ClaimEntry}
    (h : l.Arrives ctx.caller [entry.reservation] entry.amount receipt)
    (hpassed : l.admitOne ctx entry = .ok ()) :
    ∃ paid, (l.handle ctx (.revealClaim entry)).1 = .ok (.claim paid) := by
  rw [handle_revealClaim hpassed, exists_map_eq_ok_iff,
    h.exists_payOut_iff (isTotal_of_admitOne hpassed)]
  exact splittable_of_singleton receipt.shortfall entry.amount

end token

variable {l : Ledger PoolToken} {who : Address} {reserved : List Reservation} {total : Amount}
  {receipt : TransferReceipt}

theorem Arrives.payOut_of_not_splittable (h : l.Arrives who reserved total receipt)
    (htotal : IsTotal reserved total)
    (hover : ¬ Splittable receipt.shortfall (reserved.map Prod.snd)) :
    (l.payOut who reserved total).1 = .error (.overflow "claim batch apportion") := by
  have hsplit := h.assess_eq htotal
  rw [apportion_of_not_splittable hover] at hsplit
  have hpaid := paidOut l who reserved total
  generalize l.payOut who reserved total = outcome at hpaid
  cases hpaid with
  | unsent hsent => cases h.eq_receipt hsent
  | takenBack hsent hcause =>
    cases h.eq_receipt hsent
    rw [hsplit] at hcause
    rw [Except.error.inj hcause]
  | kept hsent _ hback =>
    rw [PoolToken.revert_of_transfer hsent] at hback
    cases hback
  | accepted hsent hlosses =>
    cases h.eq_receipt hsent
    rw [hsplit] at hlosses
    cases hlosses

/-- Within the limit of the policy the products stay below the width as long as the batch as a whole
is small. -/
theorem Arrives.splittable_of_small (h : l.Arrives who reserved total receipt)
    (htotal : IsTotal reserved total)
    (hsmall : l.claimPolicy.maxSlippageBps.val * total.val ^ 2 < 10000 * 2 ^ 128) :
    Splittable receipt.shortfall (reserved.map Prod.snd) := by
  intro amount hmem
  have hsent : receipt.sent = total := (sent_of_transfer (Prod.ext h.sent rfl)).1
  have hloss := shortfall_le_of_checkSlippage h.within
  have hle : amount.val ≤ total.val := by
    rw [← htotal.sum]
    exact List.le_sum_of_mem (List.mem_map_of_mem (List.mem_of_mem_dropLast hmem))
  rw [hsent] at hloss
  refine Nat.lt_of_mul_lt_mul_left (a := 10000) ?_
  calc 10000 * (receipt.shortfall.val * amount.val)
      = 10000 * receipt.shortfall.val * amount.val := (Nat.mul_assoc ..).symm
    _ ≤ l.claimPolicy.maxSlippageBps.val * total.val * total.val := Nat.mul_le_mul hloss hle
    _ = l.claimPolicy.maxSlippageBps.val * total.val ^ 2 := by rw [Nat.mul_assoc, Nat.pow_two]
    _ < 10000 * 2 ^ 128 := hsmall

/-- With the token that burns a fee, in every state, a batch that passes its checks and whose amount
arrives is paid exactly if its loss can be split, and answers with an overflow otherwise; a single
claim that passes its checks and whose amount arrives is always paid. -/
theorem batch_paid_iff_splittable {ctx : CallContext} {periods : List PeriodId}
    {amounts : List Amount} {nonces : List Digest} {proofs : List (List Digest)}
    {entries : List ClaimEntry}
    (hentries : ClaimEntry.ofLists periods amounts nonces proofs = .ok entries)
    (hpassed : l.admitAll ctx entries = .ok total)
    (harrives : l.Arrives ctx.caller (entries.map ClaimEntry.reservation) total receipt) :
    ((∃ batch, (l.handle ctx (.revealClaimBatch periods amounts nonces proofs)).1 =
          .ok (.claims batch)) ↔ Splittable receipt.shortfall amounts) ∧
      (¬ Splittable receipt.shortfall amounts →
        (l.handle ctx (.revealClaimBatch periods amounts nonces proofs)).1 =
          .error (.overflow "claim batch apportion")) ∧
      ∀ entry single, l.admitOne ctx entry = .ok () →
        l.Arrives ctx.caller [entry.reservation] entry.amount single →
          ∃ paid, (l.handle ctx (.revealClaim entry)).1 = .ok (.claim paid) := by
  have htotal := isTotal_of_admitAll hpassed
  have hamounts : (entries.map ClaimEntry.reservation).map Prod.snd = amounts := by
    obtain ⟨-, hamounts, -⟩ := ClaimEntry.ofLists_eq_ok_iff.1 hentries
    rw [List.map_map]
    exact hamounts
  rw [handle_revealClaimBatch hentries hpassed, ← hamounts]
  refine ⟨?_, fun hover => ?_, fun entry single hpassed hsingle => hsingle.exists_claim hpassed⟩
  · rw [exists_map_eq_ok_iff]
    exact harrives.exists_payOut_iff htotal
  · rw [Outcome.fst_map_eq_error_iff]
    exact harrives.payOut_of_not_splittable htotal hover

/-- A loss of two is split among claims of a hundred, a hundred and one. -/
theorem batch_paid_iff_splittable_of_uneven :
    ClaimEntry.ofLists (unevenEntries.map ClaimEntry.period) (unevenEntries.map ClaimEntry.amount)
        (unevenEntries.map ClaimEntry.nonce) (unevenEntries.map ClaimEntry.proof) =
          .ok unevenEntries ∧
      (unevenStart.after unevenEvents).admitAll unevenReveal.ctx unevenEntries = .ok 201 ∧
      (unevenStart.after unevenEvents).Arrives ⟨2⟩ (unevenEntries.map ClaimEntry.reservation) 201
        ⟨⟨2⟩, 201, 199⟩ ∧
      ∃ batch, ((unevenStart.after unevenEvents).handle unevenReveal.ctx unevenReveal.request).1 =
        .ok (.claims batch) := by
  have harrives : (unevenStart.after unevenEvents).Arrives ⟨2⟩
      (unevenEntries.map ClaimEntry.reservation) 201 ⟨⟨2⟩, 201, 199⟩ :=
    ⟨Result.toOption_eq_some_iff.1 (by decide +kernel),
      Result.toOption_eq_some_iff.1 (by decide +kernel), by decide +kernel⟩
  refine ⟨rfl, admitAll_uneven, harrives, ?_⟩
  exact (batch_paid_iff_splittable rfl admitAll_uneven harrives).1.2 (by decide)

/-- Two claims of two hundred tokens with eighteen decimals each. -/
def largeEntries : List ClaimEntry :=
  [⟨⟨0⟩, 200000000000000000000, 0, []⟩, ⟨⟨1⟩, 200000000000000000000, 0, []⟩]

/-- The state in which the run begins, with the policy that is in force by default. -/
def largeStart : Ledger PoolToken where
  era := ⟨{}, ⟨0⟩, 0, .epoch, .empty, 0⟩
  claimPolicy := {}
  domain := {}
  governance := ⟨⟨1⟩, none, none, false, 0, none, .epoch, none, {}⟩
  token := { PoolToken.empty with balances := Table.empty.insert ⟨1⟩ 400000000000000000000 }

/-- Each claim is funded, its period closed, its root posted and its commitment made. Then the token
is given a fee of one percent. -/
def largeEvents : List (Event PoolToken) :=
  largeEntries.map (fun e => .request ⟨⟨⟨1⟩, unevenTime 0, 1⟩, .deposit e.period e.amount⟩) ++
  [3600, 7200].map (fun t => .request ⟨⟨⟨1⟩, unevenTime t, 1⟩, .advancePeriod⟩) ++
  largeEntries.map (fun e =>
    .request ⟨⟨⟨1⟩, unevenTime 7200, 1⟩, .postCommitment e.period (e.claim {} ⟨2⟩).leaf⟩) ++
  largeEntries.map (fun e => .request
    ⟨⟨⟨2⟩, unevenTime 7200, 1⟩, .commitClaim e.period ((e.claim {} ⟨2⟩).commitment e.nonce)⟩) ++
  [.token (·.setFee 100)]

/-- The claims are revealed together, a day after the roots were posted. -/
def largeReveal : Call where
  ctx := ⟨⟨2⟩, unevenTime 93600, 2⟩
  request := .revealClaimBatch (largeEntries.map ClaimEntry.period)
    (largeEntries.map ClaimEntry.amount) (largeEntries.map ClaimEntry.nonce)
    (largeEntries.map ClaimEntry.proof)

private theorem admitAll_large :
    (largeStart.after largeEvents).admitAll largeReveal.ctx largeEntries =
      .ok 400000000000000000000 := by
  have hcommit : ∀ e ∈ largeEntries, (largeStart.after largeEvents).commits.get? ⟨2⟩ e.period =
      some ⟨(e.claim {} ⟨2⟩).commitment e.nonce, 1, unevenTime 7200⟩ := by
    rintro e (_ | ⟨_, _ | ⟨_, _ | _⟩⟩) <;> rfl
  have hposted : ∀ e ∈ largeEntries, (largeStart.after largeEvents).commitments.claimable
      largeStart.claimPolicy e.period largeReveal.ctx.now =
        .ok (.first {} e.period (e.claim {} ⟨2⟩).leaf (unevenTime 7200)) := by
    rintro e (_ | ⟨_, _ | ⟨_, _ | _⟩⟩) <;> rfl
  apply admitAll_of_sole (ClaimEntry.claim · {} ⟨2⟩)
  · intro e he
    refine ⟨rfl, ⟨1, _, by decide, hcommit e he⟩, ⟨_, hposted e he, rfl⟩, ?_⟩
    revert e
    decide +kernel
  · decide +kernel
  · exact ⟨by decide, by decide, by decide, by decide⟩

/-- With the default policy and a fee of one percent, four of four hundred tokens are lost, which is
within the limit; but the batch is refused, since the loss times the first amount exceeds the width.
Each of its claims is paid by itself. -/
theorem batch_refused_of_large :
    Ledger.start {} ⟨1⟩ none largeStart.token .epoch = .ok largeStart ∧
      (largeStart.after largeEvents).admitAll largeReveal.ctx largeEntries =
        .ok 400000000000000000000 ∧
      (largeStart.after largeEvents).Arrives ⟨2⟩ (largeEntries.map ClaimEntry.reservation)
        400000000000000000000 ⟨⟨2⟩, 400000000000000000000, 396000000000000000000⟩ ∧
      ((largeStart.after largeEvents).handle largeReveal.ctx largeReveal.request).1 =
        .error (.overflow "claim batch apportion") ∧
      ∀ entry ∈ largeEntries, ∃ paid,
        ((largeStart.after largeEvents).handle largeReveal.ctx (.revealClaim entry)).1 =
          .ok (.claim paid) := by
  have harrives : (largeStart.after largeEvents).Arrives ⟨2⟩
      (largeEntries.map ClaimEntry.reservation) 400000000000000000000
      ⟨⟨2⟩, 400000000000000000000, 396000000000000000000⟩ :=
    ⟨Result.toOption_eq_some_iff.1 (by decide +kernel),
      Result.toOption_eq_some_iff.1 (by decide +kernel), by decide +kernel⟩
  refine ⟨rfl, admitAll_large, harrives, ?_, fun entry hmem => ?_⟩
  · have hhandle : (largeStart.after largeEvents).handle largeReveal.ctx largeReveal.request =
        Outcome.map (Answer.claims ∘ batchReceipt ⟨2⟩ largeEntries)
          ((largeStart.after largeEvents).payOut ⟨2⟩ (largeEntries.map ClaimEntry.reservation)
            400000000000000000000) := handle_revealClaimBatch rfl admitAll_large
    rw [hhandle, Outcome.fst_map_eq_error_iff]
    exact harrives.payOut_of_not_splittable (isTotal_of_admitAll admitAll_large) (by decide)
  · have hsingle : ∀ e ∈ largeEntries, (largeStart.after largeEvents).Arrives ⟨2⟩
        [e.reservation] e.amount ⟨⟨2⟩, e.amount, 198000000000000000000⟩ := by
      rintro e (_ | ⟨_, _ | ⟨_, _ | _⟩⟩) <;>
        exact ⟨Result.toOption_eq_some_iff.1 (by decide +kernel),
          Result.toOption_eq_some_iff.1 (by decide +kernel), by decide +kernel⟩
    exact (hsingle entry hmem).exists_claim (admitOne_of_admitAll admitAll_large hmem)

end Settlement.Ledger
