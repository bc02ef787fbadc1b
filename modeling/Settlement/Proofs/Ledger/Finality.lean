import Settlement.Proofs.Ledger.History
import Settlement.Proofs.Ledger.LossBound
import Settlement.Proofs.Ledger.Posting

namespace Settlement

theorem ProtocolPolicy.objectionWindow_le {policy : ProtocolPolicy}
    (h : policy.validate = .ok ()) :
    policy.recovery.objectionWindow ≤ policy.claims.claimDelay := by
  obtain ⟨_, -, h⟩ := Result.bind_eq_ok_iff.1 h
  obtain ⟨_, -, h⟩ := Result.bind_eq_ok_iff.1 h
  obtain ⟨_, -, h⟩ := Result.bind_eq_ok_iff.1 h
  obtain ⟨_, -, h⟩ := Result.bind_eq_ok_iff.1 h
  exact require_eq_ok_iff.1 h

namespace Ledger

variable {τ : Type} [PayoutToken τ] {l : Ledger τ} {policy : ProtocolPolicy}
  {authority : Address} {guardian : Option Address} {token : τ} {now : Timestamp}

/-- The windows that the policy of a ledger was checked for are in force in all its states, since no
request changes them. -/
theorem objectionWindow_le_after
    (hstart : Ledger.start policy authority guardian token now = .ok l)
    (events : List (Event τ)) :
    (l.after events).governance.policy.objectionWindow ≤
      (l.after events).claimPolicy.claimDelay := by
  have hsame := samePolicy_after l events
  obtain ⟨hvalid, governance, era, hrecovery, -, rfl⟩ := eq_of_start hstart
  rw [hsame.recovery, hsame.claims, hrecovery]
  exact policy.objectionWindow_le hvalid

/-- The root that an entry of a claim is proven against when it is paid: which granted request put
it in force, that nothing happened to it since, and how long that is ago. -/
structure Backed (policy : ProtocolPolicy) (ctx : CallContext) (entry : ClaimEntry)
    (granted : List Call) (posting : Call) (root : Digest) : Prop where
  put : posting.request.root? entry.period = some root
  undisturbed : ∃ since, LastPosting entry.period posting since granted ∧
    ∀ call ∈ since, call.request.disputes entry.period = false
  proven : verifyProof (Claim.leaf
    { domain := policy.domain, claimant := ctx.caller, period := entry.period,
      amount := entry.amount }) entry.proof root = true
  waited : posting.ctx.now.after policy.claims.claimDelay ≤ ctx.now

theorem backed_of_validClaim
    (hstart : Ledger.start policy authority guardian token now = .ok l)
    {before : List (Event τ)} {ctx : CallContext} {entry : ClaimEntry}
    (hvalid : (l.after before).ValidClaim ctx.caller ctx.now entry.period entry.amount
      entry.proof) :
    ∃ c posting, (l.after before).commitments.claimable (l.after before).claimPolicy entry.period
        ctx.now = .ok c ∧
      posting ∈ l.granted before ∧ posting.ctx.now = c.postedAt ∧
      Backed policy ctx entry (l.granted before) posting c.root := by
  obtain ⟨c, hclaimable, hproof⟩ := hvalid.proven
  obtain ⟨hrow, hundisputed, hwaited, -⟩ := CommitmentBook.claimable_eq_ok_iff.1 hclaimable
  have hsame := samePolicy_after l before
  obtain ⟨-, governance, era, -, -, rfl⟩ := eq_of_start hstart
  obtain ⟨posting, since, hlast, hput, htime, hsince⟩ := traced_after (fun _ => rfl) before _ hrow
  rw [hsame.domain] at hproof
  rw [hsame.claims, ← htime] at hwaited
  exact ⟨c, posting, hclaimable, hlast.mem, htime, hput, ⟨since, hlast, hsince hundisputed⟩,
    hproof, hwaited⟩

/-- Claims are paid only against roots that nobody can object to any more. In no state that a ledger
reaches, and at no time, a root can be claimed against and disputed. When a claim is paid, its root
was put in force at least a claim delay ago, or the delay lasts beyond the last point in time and
this is it; nobody objected to the root since, and as long as time does not go back no objection is
granted afterwards before the period has another root. What happens in the leap second after the
last point in time is left out: there a deadline may end before the time that it is counted from. -/
theorem paid_root_final (hstart : Ledger.start policy authority guardian token now = .ok l) :
    (∀ events p t c, (l.after events).commitments.claimable (l.after events).claimPolicy p t =
        .ok c → c.postedAt ≤ .latest → ∀ who b, (l.after events).commitments.dispute
          (l.after events).governance.policy who p t ≠ .ok b) ∧
      ∀ before call later, InOrder (before ++ .request call :: later) → call.ctx.now ≤ .latest →
        ∀ payout ∈ (l.after before).payouts call, ∀ claim ∈ payout.claims,
          ∃ entry ∈ call.request.entries, entry.reservation = claim ∧
            (∃ posting root, Backed policy call.ctx entry (l.granted before) posting root ∧
              (posting.ctx.now.add? policy.claims.claimDelay = none → call.ctx.now = .latest)) ∧
            Unopposed claim.1 (((l.after before).step call).granted later) := by
  refine ⟨fun events p t c hclaimable hposted who b => ?_, ?_⟩
  · exact CommitmentBook.not_dispute_of_claimable (objectionWindow_le_after hstart events) hposted
      hclaimable
  · intro before call later hordered hlast payout hpayout claim hclaim
    obtain ⟨hclaims, total, hadmitted⟩ :=
      admitted_of_mem_payouts hpayout (List.ne_nil_of_mem hclaim)
    obtain ⟨hentries, hvalid⟩ := valid_of_admitted? hadmitted
    have hpaid := hclaim
    rw [hclaims, hentries] at hclaim
    obtain ⟨entry, hentry, rfl⟩ := List.mem_map.1 hclaim
    obtain ⟨c, posting, hclaimable, hposting, htime, hbacked⟩ :=
      backed_of_validClaim hstart (hvalid entry hentry)
    refine ⟨entry, hentry, rfl, ⟨posting, c.root, hbacked, fun hsaturates => ?_⟩, ?_⟩
    · have hwaited := hbacked.waited
      rw [Timestamp.after, hsaturates, Option.getD_none] at hwaited
      exact Timestamp.le_antisymm hlast hwaited
    · have hrow := (CommitmentBook.claimable_eq_ok_iff.1 hclaimable).1
      obtain ⟨hroot, hdisputes⟩ :=
        call.request.root?_of_claims (hclaims ▸ List.ne_nil_of_mem hpaid) entry.period
      rw [InOrder, List.filterMap_append] at hordered
      obtain ⟨-, hlater, hbefore⟩ := List.pairwise_append.1 hordered
      have hposted : c.postedAt ≤ .latest := by
        have hearlier := hbefore posting (mem_calls_of_mem_granted hposting) call List.mem_cons_self
        rw [← htime]
        exact Timestamp.le_trans hearlier hlast
      apply unopposed_granted ((commitment?_step hroot hdisputes).trans hrow)
      · rw [(samePolicy_step _ call).recovery]
        exact CommitmentBook.objectionEnd_le_of_claimable (objectionWindow_le_after hstart before)
          hposted hclaimable
      · exact (List.pairwise_cons.1 hlater).1

/-- A claim of a batch is backed by the posting of its period, a day before it is revealed. -/
theorem paid_root_final_of_uneven :
    Ledger.start { claims := { minClaimAmount := 1 } } ⟨1⟩ none unevenStart.token .epoch =
        .ok unevenStart ∧
      InOrder (unevenEvents ++ [.request unevenReveal]) ∧ unevenReveal.ctx.now ≤ .latest ∧
      ∃ payout ∈ (unevenStart.after unevenEvents).payouts unevenReveal,
        ∃ claim ∈ payout.claims, ∃ entry ∈ unevenReveal.request.entries,
          entry.reservation = claim ∧
          (∃ posting root, Backed { claims := { minClaimAmount := 1 } } unevenReveal.ctx entry
              (unevenStart.granted unevenEvents) posting root ∧
            (posting.ctx.now.add? unevenStart.claimPolicy.claimDelay = none →
              unevenReveal.ctx.now = .latest)) ∧
          Unopposed claim.1 (((unevenStart.after unevenEvents).step unevenReveal).granted []) := by
  have hstart : Ledger.start { claims := { minClaimAmount := 1 } } ⟨1⟩ none unevenStart.token
      .epoch = .ok unevenStart := rfl
  have hordered : InOrder (unevenEvents ++ [.request unevenReveal]) := by decide +kernel
  have hlast : unevenReveal.ctx.now ≤ .latest := by decide +kernel
  obtain ⟨payout, hpayout, hclaims⟩ := exists_payout_of_ok answer_uneven (by decide)
  have hmem : (⟨0⟩, 100) ∈ payout.claims := by
    rw [hclaims]
    decide
  exact ⟨hstart, hordered, hlast, payout, hpayout, _, hmem,
    (paid_root_final hstart).2 unevenEvents unevenReveal [] hordered hlast payout hpayout _ hmem⟩

/-- Two hours before the last second of all time. -/
def lateBegin : Timestamp := Timestamp.epoch.after (.ofSeconds 8210266869599)

/-- A time of the run, in seconds from its start, held at the last point in time. -/
def lateTime (seconds : Count) : Timestamp := lateBegin.after (.ofSeconds seconds)

/-- The state in which the run begins, two hours before the last second of all time. -/
def lateStart : Ledger PoolToken where
  era := ⟨{}, ⟨0⟩, 0, lateTime 0, .empty, 0⟩
  claimPolicy := {}
  domain := {}
  governance := ⟨⟨1⟩, none, none, false, 0, none, lateTime 0, none, {}⟩
  token := { PoolToken.empty with balances := Table.empty.insert ⟨1⟩ 1000 }

/-- The only claim of the run, so its leaf is the root. -/
def lateEntry : ClaimEntry := ⟨⟨0⟩, 100, 0, []⟩

/-- A period is funded, closed and posted, and its claim is committed to, all within an hour. -/
def lateEvents : List (Event PoolToken) :=
  [.request ⟨⟨⟨1⟩, lateTime 0, 1⟩, .deposit ⟨0⟩ 100⟩,
   .request ⟨⟨⟨1⟩, lateTime 3600, 1⟩, .advancePeriod⟩,
   .request ⟨⟨⟨1⟩, lateTime 3600, 1⟩, .postCommitment ⟨0⟩ (lateEntry.claim {} ⟨2⟩).leaf⟩,
   .request ⟨⟨⟨2⟩, lateTime 3600, 1⟩, .commitClaim ⟨0⟩ ((lateEntry.claim {} ⟨2⟩).commitment 0)⟩]

/-- The claim is revealed at the last point in time, when the claim delay cannot be over. -/
def lateReveal : Call := ⟨⟨⟨2⟩, .latest, 2⟩, .revealClaim lateEntry⟩

/-- The root and the commitment are compared as terms, so that no digest is computed. -/
private theorem admitOne_late :
    (lateStart.after lateEvents).admitOne lateReveal.ctx lateEntry = .ok () := by
  have hcommit : (lateStart.after lateEvents).commits.get? ⟨2⟩ ⟨0⟩ =
      some ⟨(lateEntry.claim {} ⟨2⟩).commitment lateEntry.nonce, 1, lateTime 3600⟩ := rfl
  have hposted : (lateStart.after lateEvents).commitments.claimable lateStart.claimPolicy ⟨0⟩
      .latest = .ok (.first {} ⟨0⟩ (lateEntry.claim {} ⟨2⟩).leaf (lateTime 3600)) := rfl
  apply admitOne_of_sole (lateEntry.claim {} ⟨2⟩)
  · exact ⟨rfl, ⟨1, _, by decide, hcommit⟩, ⟨_, hposted, rfl⟩, by decide +kernel⟩
  · decide +kernel

/-- At the end of time a claim is paid before the claim delay of its root is over: the root is
posted an hour before the last point in time, and the delay of a day ends there. -/
theorem paid_before_claimDelay_of_late :
    Ledger.start {} ⟨1⟩ none lateStart.token (lateTime 0) = .ok lateStart ∧
      InOrder (lateEvents ++ [.request lateReveal]) ∧
      (∃ payout ∈ (lateStart.after lateEvents).payouts lateReveal, (⟨0⟩, 100) ∈ payout.claims) ∧
      ∀ posting ∈ lateEvents.filterMap Event.call?, (posting.request.root? ⟨0⟩).isSome →
        ¬ lateStart.claimPolicy.claimDelay ≤ lateReveal.ctx.now.since posting.ctx.now := by
  refine ⟨rfl, by decide +kernel, ?_, by decide +kernel⟩
  have hpaid : ((lateStart.after lateEvents).payOut ⟨2⟩ [lateEntry.reservation] 100).1 =
      .ok (⟨⟨2⟩, 100, 100⟩, [0]) := Result.toOption_eq_some_iff.1 (by decide +kernel)
  have hanswer : ((lateStart.after lateEvents).handle lateReveal.ctx lateReveal.request).1 =
      .ok (.claim ⟨⟨2⟩, ⟨0⟩, 100, 100, 0⟩) := by
    have hhandle : (lateStart.after lateEvents).handle lateReveal.ctx lateReveal.request =
        Outcome.map (Answer.claim ∘ claimReceipt ⟨2⟩ lateEntry)
          ((lateStart.after lateEvents).payOut ⟨2⟩ [lateEntry.reservation] 100) :=
      handle_revealClaim admitOne_late
    rw [hhandle, Outcome.fst_map, hpaid]
    rfl
  obtain ⟨payout, hpayout, hclaims⟩ := exists_payout_of_ok hanswer (by decide)
  refine ⟨payout, hpayout, ?_⟩
  rw [hclaims]
  decide

end Ledger

end Settlement
