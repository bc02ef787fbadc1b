import Settlement.Proofs.Ledger.Posting
import Settlement.Proofs.Ledger.Settle
import Settlement.Token.Pool

namespace Settlement

/-- The periods that a request names. A request that moves the era or the roles names none. -/
def Request.periods : Request → List PeriodId
  | .deposit period _ => [period]
  | .postCommitment period _ => [period]
  | .disputeCommitment period => [period]
  | .replaceCommitment period _ => [period]
  | .sweepPeriod period _ => [period]
  | .commitClaim period _ => [period]
  | .revealClaim entry => [entry.period]
  | .revealClaimBatch periods _ _ _ => periods
  | _ => []

namespace Ledger

variable {τ : Type} {l l' l'' : Ledger τ} {ctx : CallContext} {request : Request} {who : Address}
  {p : PeriodId}

/-- The mark and the open commitment of a claimant for a period are the same. -/
structure SameClaim (who : Address) (p : PeriodId) (l l' : Ledger τ) : Prop where
  claimed : l'.hasClaimed who p = l.hasClaimed who p
  commit : l'.commits.get? who p = l.commits.get? who p

/-- The money and the posted root of a period are the same. -/
structure SameBooks (p : PeriodId) (l l' : Ledger τ) : Prop where
  fund : l'.funds.get? p = l.funds.get? p
  commitment : l'.commitment? p = l.commitment? p

theorem SameClaim.refl (l : Ledger τ) : SameClaim who p l l := ⟨rfl, rfl⟩

theorem SameClaim.trans (h : SameClaim who p l l') (h' : SameClaim who p l' l'') :
    SameClaim who p l l'' := ⟨h'.claimed.trans h.claimed, h'.commit.trans h.commit⟩

theorem SameBooks.refl (l : Ledger τ) : SameBooks p l l := ⟨rfl, rfl⟩

theorem SameBooks.trans (h : SameBooks p l l') (h' : SameBooks p l' l'') : SameBooks p l l'' :=
  ⟨h'.fund.trans h.fund, h'.commitment.trans h.commitment⟩

theorem Reposts.eq_of_not_mem {now : Timestamp} {row : Option Commitment}
    (h : Reposts l p now request row) (hp : p ∉ request.periods) : row = l.commitment? p := by
  cases h with
  | kept => rfl
  | first | disputed => exact absurd (List.mem_singleton_self _) hp
  | renewed hroot =>
    cases request with
    | postCommitment period _ | replaceCommitment period _ =>
      simp only [Request.root?, Option.ite_none_right_eq_some] at hroot
      exact absurd (List.mem_singleton.2 hroot.1.symm) hp
    | _ => cases hroot

theorem Controlled.sameBooks {answer : Answer} (h : Controlled l ctx request answer l')
    (hp : p ∉ request.periods) : SameBooks p l l' where
  fund := congrArg (fun funds : FundBook => funds.get? p) h.money.1
  commitment := (h.reposts p).eq_of_not_mem hp

theorem Controlled.sameClaim {answer : Answer} (h : Controlled l ctx request answer l')
    (hother : who ≠ ctx.caller ∨ p ∉ request.periods) : SameClaim who p l l' where
  claimed := congrArg (fun registry : ClaimRegistry => registry.hasClaimed who p) h.money.2.1
  commit := by
    cases h with
    | @committed period _ _ _ _ =>
      rw [CommitBook.get?_commit, if_neg]
      rintro ⟨rfl, rfl⟩
      exact hother.elim (absurd rfl) (absurd (List.mem_singleton_self _))
    | resumed =>
      split
      · rfl
      · rfl
    | _ => rfl

theorem sameClaim_settle {claimant : Address} {reserved : List Reservation} {losses : List Amount}
    {token : τ} (hother : who ≠ claimant ∨ p ∉ reserved.map Prod.fst) :
    SameClaim who p l (l.settle claimant reserved losses token) := by
  have hnot : ¬ (who = claimant ∧ p ∈ reserved.map Prod.fst) := not_and_or.2 hother
  constructor
  · rw [Bool.eq_iff_iff, hasClaimed_settle]
    exact or_iff_right hnot
  · rw [get?_commits_settle, if_neg hnot]

section token

variable [PayoutToken τ]

theorem PaidOut.sameBooks {claimant : Address} {reserved : List Reservation} {total : Amount}
    {outcome : Outcome τ (TransferReceipt × List Amount)}
    (h : PaidOut l claimant reserved total outcome) (hp : p ∉ reserved.map Prod.fst) :
    SameBooks p l outcome.2 := by
  cases h with
  | unsent | takenBack => exact ⟨rfl, rfl⟩
  | kept | accepted => exact ⟨get?_settle_of_not_mem hp, rfl⟩

/-- A payout, however it ends, is about the claims of its own claimant: be it accepted, taken back
or kept against the will of the ledger. -/
theorem PaidOut.sameClaim {claimant : Address} {reserved : List Reservation} {total : Amount}
    {outcome : Outcome τ (TransferReceipt × List Amount)}
    (h : PaidOut l claimant reserved total outcome)
    (hother : who ≠ claimant ∨ p ∉ reserved.map Prod.fst) : SameClaim who p l outcome.2 := by
  cases h with
  | unsent | takenBack => exact ⟨rfl, rfl⟩
  | kept | accepted => exact sameClaim_settle hother

theorem map_reservation_subset {periods : List PeriodId} {amounts : List Amount}
    {nonces : List Digest} {proofs : List (List Digest)} {entries : List ClaimEntry}
    (hentries : ClaimEntry.ofLists periods amounts nonces proofs = .ok entries) :
    (entries.map ClaimEntry.reservation).map Prod.fst ⊆ periods := by
  rw [ClaimEntry.map_reservation_of_ofLists hentries]
  intro p hp
  obtain ⟨claim, hclaim, rfl⟩ := List.mem_map.1 hp
  exact (List.of_mem_zip hclaim).1

/-- A request touches the books of the periods that it names, whether it is granted or not. -/
theorem sameBooks_step {call : Call} (hp : p ∉ call.request.periods) :
    SameBooks p l (l.step call) := by
  obtain ⟨ctx, request⟩ := call
  have hhandled := handled l ctx request
  change SameBooks p l (l.handle ctx request).2
  generalize l.handle ctx request = outcome at hhandled ⊢
  cases hhandled with
  | refused => exact .refl l
  | quiet hcontrolled => exact hcontrolled.sameBooks hp
  | uncollected => exact ⟨rfl, rfl⟩
  | unrecorded | deposited | emptied | unpaid | swept =>
    exact ⟨(FundBook.get?_set ..).trans (if_neg (List.ne_of_not_mem_cons hp)), rfl⟩
  | claimed => exact (paidOut ..).sameBooks hp
  | batchClaimed hentries =>
    exact (paidOut ..).sameBooks fun hmem => hp (map_reservation_subset hentries hmem)

theorem sameClaim_step {call : Call}
    (hother : who ≠ call.ctx.caller ∨ p ∉ call.request.periods) :
    SameClaim who p l (l.step call) := by
  obtain ⟨ctx, request⟩ := call
  have hhandled := handled l ctx request
  change SameClaim who p l (l.handle ctx request).2
  generalize l.handle ctx request = outcome at hhandled ⊢
  cases hhandled with
  | quiet hcontrolled => exact hcontrolled.sameClaim hother
  | claimed => exact (paidOut ..).sameClaim hother
  | batchClaimed hentries =>
    exact (paidOut ..).sameClaim
      (hother.imp_right fun hp hmem => hp (map_reservation_subset hentries hmem))
  | _ => exact ⟨rfl, rfl⟩

/-- The books of a period stay as they are through a run that does not name it. -/
theorem sameBooks_after {events : List (Event τ)}
    (hother : ∀ call ∈ events.filterMap Event.call?, p ∉ call.request.periods) :
    SameBooks p l (l.after events) :=
  after_of_calls (P := SameBooks p l) (fun _ _ hcall h => h.trans (sameBooks_step hcall))
    (fun _ _ h => ⟨h.fund, h.commitment⟩) (.refl l) hother

/-- The mark and the open commitment of a claimant for a period stay as they are through a run in
which the claimant does not name it. -/
theorem sameClaim_after {events : List (Event τ)}
    (hother : ∀ call ∈ events.filterMap Event.call?,
      who ≠ call.ctx.caller ∨ p ∉ call.request.periods) : SameClaim who p l (l.after events) :=
  after_of_calls (P := SameClaim who p l) (fun _ _ hcall h => h.trans (sameClaim_step hcall))
    (fun _ _ h => ⟨h.claimed, h.commit⟩) (.refl l) hother

/-- Periods and claimants are isolated. Whatever the state, the request and its outcome, nothing
that the ledger knows about a period changes unless the request names it, and no mark and no open
commitment of a claimant other than the caller. The same holds for runs: what concerns a period is
up to the requests that name it, and what concerns a claimant up to the claimant's own. -/
theorem periods_and_claimants_isolated (l : Ledger τ) :
    (∀ call : Call,
      (∀ p ∉ call.request.periods,
        SameBooks p l (l.step call) ∧ ∀ who, SameClaim who p l (l.step call)) ∧
      ∀ who ≠ call.ctx.caller, ∀ p, SameClaim who p l (l.step call)) ∧
    ∀ events : List (Event τ),
      (∀ p, (∀ call ∈ events.filterMap Event.call?, p ∉ call.request.periods) →
        SameBooks p l (l.after events) ∧ ∀ who, SameClaim who p l (l.after events)) ∧
      ∀ who, (∀ call ∈ events.filterMap Event.call?, who ≠ call.ctx.caller) →
        ∀ p, SameClaim who p l (l.after events) := by
  refine ⟨fun call => ⟨fun p hp => ?_, fun who hwho p => ?_⟩,
    fun events => ⟨fun p hp => ?_, fun who hwho p => ?_⟩⟩
  · exact ⟨sameBooks_step hp, fun who => sameClaim_step (.inr hp)⟩
  · exact sameClaim_step (.inl hwho)
  · exact ⟨sameBooks_after hp, fun who => sameClaim_after fun call hcall => .inr (hp call hcall)⟩
  · exact sameClaim_after fun call hcall => .inl (hwho call hcall)

end token

/-- Two periods are funded and closed, a root is posted for each, and a claimant commits to a claim
of each. -/
def twoPeriodsRun : List (Event PoolToken) :=
  [.request ⟨⟨⟨1⟩, .epoch, 1⟩, .deposit ⟨0⟩ 500⟩,
   .request ⟨⟨⟨1⟩, .epoch, 1⟩, .deposit ⟨1⟩ 300⟩,
   .request ⟨⟨⟨1⟩, Timestamp.epoch.after (.ofSeconds 3600), 2⟩, .advancePeriod⟩,
   .request ⟨⟨⟨1⟩, Timestamp.epoch.after (.ofSeconds 7200), 3⟩, .advancePeriod⟩,
   .request ⟨⟨⟨1⟩, Timestamp.epoch.after (.ofSeconds 7200), 3⟩, .postCommitment ⟨0⟩ 7⟩,
   .request ⟨⟨⟨1⟩, Timestamp.epoch.after (.ofSeconds 7200), 3⟩, .postCommitment ⟨1⟩ 8⟩,
   .request ⟨⟨⟨4⟩, Timestamp.epoch.after (.ofSeconds 7200), 3⟩, .commitClaim ⟨0⟩ 9⟩,
   .request ⟨⟨⟨4⟩, Timestamp.epoch.after (.ofSeconds 7200), 3⟩, .commitClaim ⟨1⟩ 9⟩]

/-- Another claimant commits to a claim of one of the periods, which is swept in the end. -/
def onePeriodRun : List (Event PoolToken) :=
  [.request ⟨⟨⟨5⟩, Timestamp.epoch.after (.ofSeconds 7200), 3⟩, .commitClaim ⟨0⟩ 6⟩,
   .request ⟨⟨⟨1⟩, Timestamp.epoch.after (.ofSeconds 10375200), 4⟩, .sweepPeriod ⟨0⟩ ⟨3⟩⟩]

/-- The other period and the first claimant do not notice the commitment of the second one, or the
sweep. -/
theorem periods_and_claimants_isolated_of_two : ∃ l reached : Ledger PoolToken,
    Ledger.start {} ⟨1⟩ none { balances := Table.empty.insert ⟨1⟩ 1000 } .epoch = .ok l ∧
      l.after twoPeriodsRun = reached ∧
      (reached.granted onePeriodRun).length = 2 ∧
      (reached.after onePeriodRun).remaining ⟨0⟩ = 0 ∧
      (∀ call ∈ onePeriodRun.filterMap Event.call?,
        ⟨1⟩ ∉ call.request.periods ∧ (⟨4⟩ : Address) ≠ call.ctx.caller) ∧
      SameBooks ⟨1⟩ reached (reached.after onePeriodRun) ∧
      (∀ who, SameClaim who ⟨1⟩ reached (reached.after onePeriodRun)) ∧
      ∀ p, SameClaim ⟨4⟩ p reached (reached.after onePeriodRun) := by
  obtain ⟨l, hstart, hgranted, hswept⟩ : ∃ l : Ledger PoolToken,
      Ledger.start {} ⟨1⟩ none { balances := Table.empty.insert ⟨1⟩ 1000 } .epoch = .ok l ∧
        ((l.after twoPeriodsRun).granted onePeriodRun).length = 2 ∧
        ((l.after twoPeriodsRun).after onePeriodRun).remaining ⟨0⟩ = 0 :=
    ⟨_, rfl, by decide +kernel, by decide +kernel⟩
  have hother : ∀ call ∈ onePeriodRun.filterMap Event.call?,
      ⟨1⟩ ∉ call.request.periods ∧ (⟨4⟩ : Address) ≠ call.ctx.caller := by decide
  obtain ⟨hperiods, hclaimants⟩ :=
    (periods_and_claimants_isolated (l.after twoPeriodsRun)).2 onePeriodRun
  obtain ⟨hbooks, hclaims⟩ := hperiods ⟨1⟩ fun call hcall => (hother call hcall).1
  exact ⟨l, _, hstart, rfl, hgranted, hswept, hother, hbooks, hclaims,
    hclaimants ⟨4⟩ fun call hcall => (hother call hcall).2⟩

end Ledger

end Settlement
