import Settlement.Proofs.Ledger.Conservation
import Settlement.Proofs.Ledger.History

namespace Settlement.Ledger

variable {τ : Type} {l : Ledger τ} {paid : List Payout}

/-- The books agree with the payouts so far: the marks of the registry and the claimed amounts of
the periods say exactly what these add up to, whichever way the claims came and whatever the token
did. -/
structure Accounts (l : Ledger τ) (paid : List Payout) : Prop where
  once : ∀ claimant p, paid.countP (·.covers claimant p) ≤ 1
  marks : ∀ claimant p, l.hasClaimed claimant p = true ↔
    ∃ payout ∈ paid, payout.covers claimant p = true
  claimed : ∀ p, (l.periodFund p).claimed.val = (paid.map fun payout => sumFor payout.claims p).sum

theorem Accounts.countP_eq_zero (h : Accounts l paid) {claimant : Address} {p : PeriodId}
    (hfree : l.hasClaimed claimant p = false) : paid.countP (·.covers claimant p) = 0 := by
  rw [List.countP_eq_zero]
  intro payout hmem hcovers
  have hmarked := (h.marks claimant p).2 ⟨payout, hmem, hcovers⟩
  rw [hfree] at hmarked
  cases hmarked

theorem Accounts.append_nil_claims (h : Accounts l paid) {others : List Payout}
    (hnone : ∀ payout ∈ others, payout.claims = []) : Accounts l (paid ++ others) := by
  have hcovers : ∀ claimant p, ∀ payout ∈ others, ¬ payout.covers claimant p = true := by
    intro claimant p payout hmem
    simp [Payout.covers, hnone payout hmem]
  refine ⟨fun claimant p => ?_, fun claimant p => ?_, fun p => ?_⟩
  · rw [List.countP_append, List.countP_eq_zero.2 (hcovers claimant p)]
    exact h.once claimant p
  · rw [h.marks]
    constructor
    · rintro ⟨payout, hmem, hcovered⟩
      exact ⟨payout, List.mem_append_left _ hmem, hcovered⟩
    · rintro ⟨payout, hmem, hcovered⟩
      rcases List.mem_append.1 hmem with hmem | hmem
      · exact ⟨payout, hmem, hcovered⟩
      · exact absurd hcovered (hcovers claimant p payout hmem)
  · have hzero : (others.map fun payout => sumFor payout.claims p).sum = 0 := by
      rw [List.sum_eq_zero_iff_forall_eq_nat]
      intro n hn
      obtain ⟨payout, hmem, rfl⟩ := List.mem_map.1 hn
      rw [hnone payout hmem]
      rfl
    rw [List.map_append, List.sum_append, hzero, h.claimed, Nat.add_zero]

/-- A payout that stands is added to both sides. Its claims were not marked, so none of them is paid
twice. -/
theorem Accounts.settle (h : Accounts l paid) {who : Address} {claims : List Reservation}
    {losses : List Amount} (hpayable : l.Payable who claims)
    (hlength : losses.length = claims.length) (receipt : TransferReceipt) (token : τ) :
    Accounts (l.settle who claims losses token) (paid ++ [⟨who, claims, receipt⟩]) := by
  have hcovers (claimant : Address) (p : PeriodId) :
      (⟨who, claims, receipt⟩ : Payout).covers claimant p = true ↔
        claimant = who ∧ p ∈ claims.map Prod.fst :=
    decide_eq_true_iff
  refine ⟨fun claimant p => ?_, fun claimant p => ?_, fun p => ?_⟩
  · rw [List.countP_append, List.countP_singleton]
    split
    · next hcovered =>
      obtain ⟨rfl, hp⟩ := (hcovers claimant p).1 hcovered
      obtain ⟨claim, hmem, rfl⟩ := List.mem_map.1 hp
      have hzero := h.countP_eq_zero (hpayable.unclaimed claim hmem)
      exact Nat.le_of_eq (by rw [hzero])
    · exact h.once claimant p
  · rw [hasClaimed_settle, h.marks, ← hcovers claimant p]
    constructor
    · rintro (hcovered | ⟨payout, hmem, hcovered⟩)
      · exact ⟨_, List.mem_append_right _ (List.mem_singleton.2 rfl), hcovered⟩
      · exact ⟨payout, List.mem_append_left _ hmem, hcovered⟩
    · rintro ⟨payout, hmem, hcovered⟩
      rcases List.mem_append.1 hmem with hmem | hmem
      · exact Or.inr ⟨payout, hmem, hcovered⟩
      · rw [List.mem_singleton.1 hmem] at hcovered
        exact Or.inl hcovered
  · have hclaimed := val_claimed_settle hpayable hlength token p
    have hbefore := h.claimed p
    unfold periodFund at hbefore ⊢
    rw [hclaimed, hbefore, List.map_append, List.sum_append, List.map_singleton,
      List.sum_singleton]

section start

variable {policy : ProtocolPolicy} {authority : Address} {guardian : Option Address} {token : τ}
  {now : Timestamp}

theorem accounts_start (hstart : Ledger.start policy authority guardian token now = .ok l) :
    Accounts l [] := by
  obtain ⟨-, -, hfunds, hregistry, -⟩ := start_eq_ok hstart
  refine ⟨fun claimant p => Nat.zero_le 1, fun claimant p => ?_, fun p => ?_⟩
  · unfold hasClaimed
    rw [hregistry]
    simp [ClaimRegistry.hasClaimed_iff, Table.get?, Table.empty, Table.lookup]
  · unfold periodFund
    rw [hfunds]
    rfl

variable [PayoutToken τ]

theorem Accounts.step (h : Accounts l paid) (call : Call) :
    Accounts (l.step call) (paid ++ l.payouts call) := by
  cases pays l call with
  | none hpayouts hclaimed hregistry =>
    have hbooks : Accounts (l.step call) paid := by
      refine ⟨h.once, fun claimant p => ?_, fun p => ?_⟩
      · rw [← h.marks]
        unfold hasClaimed
        rw [hregistry]
      · rw [hclaimed, h.claimed]
    exact hbooks.append_nil_claims hpayouts
  | once receipt losses token hpayable hlength hpayouts hstep =>
    rw [hpayouts, hstep]
    exact h.settle hpayable hlength receipt token

theorem Accounts.after (h : Accounts l paid) (events : List (Event τ)) :
    Accounts (l.after events) (paid ++ l.history events) := by
  induction events generalizing l paid with
  | nil =>
    rw [history, List.append_nil]
    exact h
  | cons event rest ih =>
    cases event with
    | request call =>
      rw [history, ← List.append_assoc]
      exact ih (h.step call)
    | token change =>
      rw [history]
      exact ih ⟨h.once, h.marks, h.claimed⟩

/-- In every run, whatever its token does, each claim is paid by one transfer that stands at most.
It is marked exactly when there is one, and what a period has claimed is the sum of what was claimed
of it by these transfers. -/
theorem paid_at_most_once (hstart : Ledger.start policy authority guardian token now = .ok l)
    (events : List (Event τ)) :
    (∀ claimant p, (l.history events).countP (·.covers claimant p) ≤ 1 ∧
      ((l.after events).hasClaimed claimant p = true ↔
        ∃ payout ∈ l.history events, payout.covers claimant p = true)) ∧
      ∀ p, ((l.after events).periodFund p).claimed.val =
        ((l.history events).map fun payout => sumFor payout.claims p).sum := by
  have haccounts := (accounts_start hstart).after events
  rw [List.nil_append] at haccounts
  exact ⟨fun claimant p => ⟨haccounts.once claimant p, haccounts.marks claimant p⟩,
    haccounts.claimed⟩

end start

/-- Two claims are paid in the run. One of the payouts is objected to, and stands since the token
refuses to take it back. -/
theorem paid_at_most_once_of_refusing :
    Ledger.start {} ⟨1⟩ none refusingStart.token .epoch = .ok refusingStart ∧
      ((refusingStart.after refusingPaid).handle refusingContext (.revealClaim lossyEntry)).1 =
        .error (.transferFailed "revert refused") ∧
      (∃ payout ∈ refusingStart.history refusingRun, payout.covers ⟨2⟩ ⟨0⟩ = true) ∧
      (∃ payout ∈ refusingStart.history refusingRun, payout.covers ⟨2⟩ ⟨1⟩ = true) ∧
      (∀ claimant p, (refusingStart.history refusingRun).countP (·.covers claimant p) ≤ 1 ∧
        ((refusingStart.after refusingRun).hasClaimed claimant p = true ↔
          ∃ payout ∈ refusingStart.history refusingRun, payout.covers claimant p = true)) ∧
      ∀ p, ((refusingStart.after refusingRun).periodFund p).claimed.val =
        ((refusingStart.history refusingRun).map fun payout => sumFor payout.claims p).sum := by
  have hstart : Ledger.start {} ⟨1⟩ none refusingStart.token .epoch = .ok refusingStart := rfl
  have hmarked : (refusingStart.after refusingRun).hasClaimed ⟨2⟩ ⟨0⟩ = true ∧
      (refusingStart.after refusingRun).hasClaimed ⟨2⟩ ⟨1⟩ = true := by
    rw [after_refusingRun]
    decide +kernel
  obtain ⟨honce, hclaimed⟩ := paid_at_most_once hstart refusingRun
  exact ⟨hstart, fst_handle_lossy, (honce ⟨2⟩ ⟨0⟩).2.1 hmarked.1, (honce ⟨2⟩ ⟨1⟩).2.1 hmarked.2,
    honce, hclaimed⟩

end Settlement.Ledger
