import Settlement.Proofs.Ledger.Lifecycle
import Settlement.Token.Pool

namespace Settlement

/-- Claims end after they open: the claim window is longer than the claim delay. A first root
therefore always leaves a time in between. -/
theorem ProtocolPolicy.claimDelay_lt {policy : ProtocolPolicy} (h : policy.validate = .ok ()) :
    policy.claims.claimDelay < policy.claims.claimWindow := by
  obtain ⟨_, -, h⟩ := Result.bind_eq_ok_iff.1 h
  obtain ⟨_, hclaims, -⟩ := Result.bind_eq_ok_iff.1 h
  obtain ⟨_, hdelay, -⟩ := Result.bind_eq_ok_iff.1 hclaims
  exact require_eq_ok_iff.1 hdelay

namespace Ledger

variable {τ : Type} {l l' : Ledger τ} {p : PeriodId} {c : Commitment}

/-- The first of these calls that put a root in force for a period is `posting`. -/
def FirstPosting (p : PeriodId) (posting : Call) (calls : List Call) : Prop :=
  (posting.request.root? p).isSome = true ∧ ∃ earlier since, calls = earlier ++ posting :: since ∧
    ∀ call ∈ earlier, call.request.root? p = none

/-- The call `last` puts a root in force no later than the claim window less the claim delay after
the call `first`: the delay from the one is over before the window from the other. A root that comes
later takes no claims. -/
def InTime (claims : ClaimPolicy) (first last : Call) : Prop :=
  last.ctx.now.after claims.claimDelay ≤ first.ctx.now.after claims.claimWindow

/-- The times that count from postings of the period lie within the range of time. -/
def WithinTime (claims : ClaimPolicy) (p : PeriodId) (calls : List Call) : Prop :=
  ∀ posting ∈ calls, (posting.request.root? p).isSome = true →
    ((posting.ctx.now.add? claims.claimWindow).bind (·.add? claims.sweepDelay)).isSome = true

instance (claims : ClaimPolicy) (p : PeriodId) (calls : List Call) :
    Decidable (WithinTime claims p calls) :=
  inferInstanceAs (Decidable (∀ posting ∈ calls, _ → _))

/-- A period has a row from the first call on that put a root in force for it. -/
structure Opened (p : PeriodId) (calls : List Call) (row : Option Commitment) : Prop where
  unposted : row = none → ∀ call ∈ calls, call.request.root? p = none
  posted : ∀ c, row = some c →
    ∃ first, FirstPosting p first calls ∧ first.ctx.now = c.firstPostedAt

theorem FirstPosting.concat {posting : Call} {calls : List Call} (h : FirstPosting p posting calls)
    (call : Call) : FirstPosting p posting (calls ++ [call]) := by
  obtain ⟨hroot, earlier, since, rfl, hearlier⟩ := h
  exact ⟨hroot, earlier, since ++ [call], by simp, hearlier⟩

/-- A request that leaves a period without a row put no root in force for it. -/
theorem Reposts.root?_eq_none {now : Timestamp} {request : Request}
    (h : Reposts l p now request none) : request.root? p = none := by
  generalize hrow : (none : Option Commitment) = row at h
  cases h with
  | kept hroot => exact hroot
  | _ => cases hrow

theorem Opened.concat {calls : List Call} {call : Call} {row : Option Commitment}
    (h : Opened p calls (l.commitment? p)) (hreposts : Reposts l p call.ctx.now call.request row) :
    Opened p (calls ++ [call]) row := by
  cases hold : l.commitment? p with
  | some old =>
    obtain ⟨c', rfl, hfirst, -⟩ := hreposts.keeps hold
    refine ⟨nofun, fun c hrow => ?_⟩
    obtain rfl := Option.some.inj hrow
    obtain ⟨first, hposting, htime⟩ := h.posted old hold
    exact ⟨first, hposting.concat call, htime.trans hfirst.symm⟩
  | none =>
    have hearlier := h.unposted hold
    refine ⟨fun hnone => ?_, fun c hrow => ?_⟩
    · subst hnone
      rw [List.forall_mem_append, List.forall_mem_singleton]
      exact ⟨hearlier, hreposts.root?_eq_none⟩
    · subst hrow
      obtain ⟨-, root, hrequest, rfl⟩ := hreposts.origin hold
      have hroot : call.request.root? p = some root := by
        rw [hrequest]
        exact if_pos rfl
      exact ⟨call, ⟨by rw [hroot]; rfl, calls, [], rfl, hearlier⟩, rfl⟩

theorem opened_after [PayoutToken τ] (hnone : ∀ p, l.commitment? p = none)
    (events : List (Event τ)) (p : PeriodId) :
    Opened p (l.granted events) ((l.after events).commitment? p) := by
  have hstart : Opened p [] (l.commitment? p) := by
    rw [hnone p]
    exact ⟨fun _ _ h => absurd h List.not_mem_nil, fun _ h => by cases h⟩
  refine gather_of_next (f := grant) (P := fun l calls => Opened p calls (l.commitment? p))
    (fun l call before h => ?_) (fun _ _ _ h => h) hstart events
  rcases reposts l call p with ⟨hgrant, hsame⟩ | ⟨hgrant, hreposts⟩
  · rw [hgrant, hsame, List.append_nil]
    exact h
  · rw [hgrant]
    exact h.concat hreposts

/-- The time for claims on the root of a row, of which `first` and `last` are the first and the last
posting. Claims open a claim delay after the root was put in force, and end at a deadline that the
first posting of the period fixes for all that follow. -/
structure ClaimTime (claims : ClaimPolicy) (l : Ledger τ) (p : PeriodId) (c : Commitment)
    (first last : Call) : Prop where
  put : last.request.root? p = some c.root
  postedAt : c.postedAt = last.ctx.now
  deadline : c.postedAt.after claims.claimDelay ≤ c.claimDeadline ↔ InTime claims first last
  claimable : (∃ t, l.commitments.claimable l.claimPolicy p t = .ok c) ↔
    c.dispute = none ∧ InTime claims first last
  swept : c.claimDeadline.inLeapSecond = false →
    ∀ t, l.commitments.claimable l.claimPolicy p t = .ok c →
      ∀ ctx treasury, l.checkSweep ctx p treasury = .ok () → t.after claims.sweepDelay ≤ ctx.now

/-- A row with these postings has such a time, by the checks of claims and sweeps. -/
theorem claimTime_of_postings {claims : ClaimPolicy} {first last : Call}
    (horderly : Orderly claims l) (hrow : l.commitment? p = some c)
    (hopened : first.ctx.now = c.firstPostedAt) (hput : last.request.root? p = some c.root)
    (htime : last.ctx.now = c.postedAt) : ClaimTime claims l p c first last := by
  have hdeadline : c.claimDeadline = first.ctx.now.after claims.claimWindow := by
    rw [horderly.deadline p c hrow, ← hopened]
  have hclaimable (t : Timestamp) : l.commitments.claimable l.claimPolicy p t = .ok c ↔
      c.dispute = none ∧ c.postedAt.after claims.claimDelay ≤ t ∧ t ≤ c.claimDeadline := by
    rw [CommitmentBook.claimable_eq_ok_iff, horderly.policy]
    exact and_iff_right hrow
  have hintime : c.postedAt.after claims.claimDelay ≤ c.claimDeadline ↔
      InTime claims first last := by
    rw [hdeadline, ← htime]
    rfl
  refine ⟨hput, htime.symm, hintime, ⟨?_, ?_⟩, ?_⟩
  · rintro ⟨t, ht⟩
    obtain ⟨hundisputed, hopen, hend⟩ := (hclaimable t).1 ht
    exact ⟨hundisputed, hintime.1 (Timestamp.le_trans hopen hend)⟩
  · rintro ⟨hundisputed, hearly⟩
    exact ⟨_, (hclaimable _).2 ⟨hundisputed, Timestamp.le_refl _, hintime.2 hearly⟩⟩
  · intro hplain t ht ctx treasury hsweep
    obtain ⟨c', hrow', hlate⟩ := commitment?_of_checkSweep hsweep
    obtain rfl : c = c' := Option.some.inj (hrow.symm.trans hrow')
    obtain ⟨-, -, hend⟩ := (hclaimable t).1 ht
    rw [horderly.policy] at hlate
    exact Timestamp.le_trans (Timestamp.after_le_after_of_le hplain hend) hlate

theorem Reposts.put {now : Timestamp} {request : Request} {row : Option Commitment} {root : Digest}
    (h : Reposts l p now request row) (hroot : request.root? p = some root) :
    ∃ c, row = some c ∧ c.root = root ∧ c.postedAt = now ∧ c.dispute = none := by
  cases h with
  | kept hnone =>
    rw [hnone] at hroot
    cases hroot
  | disputed => cases hroot
  | first =>
    cases (if_pos rfl).symm.trans hroot
    exact ⟨_, rfl, rfl, rfl, rfl⟩
  | renewed hroot' =>
    obtain rfl := Option.some.inj (hroot'.symm.trans hroot)
    exact ⟨_, rfl, rfl, rfl, rfl⟩

section run

variable [PayoutToken τ] {policy : ProtocolPolicy} {authority : Address} {guardian : Option Address}
  {token : τ} {now : Timestamp}

/-- A root leaves a time for claims exactly if it is put in force early enough. In every state that
a ledger reaches, claims on the root of a period open before their deadline if and only if the last
posting or replacement came no later than the claim window less the claim delay after the first,
which by itself always does. An undisputed root can then be claimed against, at times that lie at
least a sweep delay ahead of every sweep unless the deadline lies in a leap second; otherwise it
takes no claim at any time, since the deadline does not move. A posting or replacement leaves the
root undisputed. -/
theorem claimTime_of_posted (hstart : Ledger.start policy authority guardian token now = .ok l)
    (events : List (Event τ)) (p : PeriodId) :
    (∀ posting : Call, posting.ctx.now ≤ .latest → InTime policy.claims posting posting) ∧
      (∀ c, (l.after events).commitment? p = some c → ∃ first last since,
        FirstPosting p first (l.granted events) ∧ LastPosting p last since (l.granted events) ∧
          ClaimTime policy.claims (l.after events) p c first last) ∧
      ∀ (call : Call) root, (l.after events).grant call = [call] →
        call.request.root? p = some root →
          ∃ c, (l.after (events ++ [.request call])).commitment? p = some c ∧ c.root = root ∧
            c.postedAt = call.ctx.now ∧ c.dispute = none := by
  have horderly := (lifecycle_in_order hstart events).1
  have hdelay := policy.claimDelay_lt (start_eq_ok hstart).1
  have hunposted : ∀ p, l.commitment? p = none := by
    obtain ⟨-, governance, era, -, -, rfl⟩ := eq_of_start hstart
    exact fun _ => rfl
  refine ⟨fun posting hposting => ?_, fun c hrow => ?_, fun call root hgrant hroot => ?_⟩
  · exact Timestamp.after_le_after hposting (Nat.le_of_lt hdelay)
  · obtain ⟨first, hfirst, hopened⟩ := (opened_after hunposted events p).posted c hrow
    obtain ⟨last, since, hlast, hput, htime, -⟩ := traced_after hunposted events p hrow
    exact ⟨first, last, since, hfirst, hlast,
      claimTime_of_postings horderly hrow hopened hput htime⟩
  · rw [after_append_request]
    exact (reposts_of_grant hgrant p).put hroot

end run

/-- A period is closed and posted, and posted again at the deadline that the first posting fixed. -/
def repostedRun : List (Event PoolToken) :=
  [.request ⟨⟨⟨1⟩, Timestamp.epoch.after (.ofSeconds 3600), 1⟩, .advancePeriod⟩,
   .request ⟨⟨⟨1⟩, Timestamp.epoch.after (.ofSeconds 3600), 1⟩, .postCommitment ⟨0⟩ 7⟩,
   .request ⟨⟨⟨1⟩, Timestamp.epoch.after (.ofSeconds 7779600), 1⟩, .postCommitment ⟨0⟩ 8⟩]

/-- The row of the period after the run, with the time of the second posting and the deadline of the
first. -/
def repostedRow : Commitment where
  period := ⟨0⟩
  root := 8
  postedAt := Timestamp.epoch.after (.ofSeconds 7779600)
  firstPostedAt := Timestamp.epoch.after (.ofSeconds 3600)
  claimDeadline := Timestamp.epoch.after (.ofSeconds 7779600)
  replacements := 0
  dispute := none

/-- The root that is posted at the deadline of the first one is not in time. -/
theorem claimTime_of_posted_of_reposted : ∃ l : Ledger PoolToken,
    Ledger.start {} ⟨1⟩ (some ⟨2⟩) .empty .epoch = .ok l ∧
      (l.after repostedRun).commitment? ⟨0⟩ = some repostedRow ∧
      (∀ posting : Call, posting.ctx.now ≤ .latest → InTime {} posting posting) ∧
      (∃ first last since, FirstPosting ⟨0⟩ first (l.granted repostedRun) ∧
        LastPosting ⟨0⟩ last since (l.granted repostedRun) ∧
          ClaimTime {} (l.after repostedRun) ⟨0⟩ repostedRow first last) ∧
      ∀ (call : Call) root, (l.after repostedRun).grant call = [call] →
        call.request.root? ⟨0⟩ = some root →
          ∃ c, (l.after (repostedRun ++ [.request call])).commitment? ⟨0⟩ = some c ∧
            c.root = root ∧ c.postedAt = call.ctx.now ∧ c.dispute = none := by
  obtain ⟨l, hstart, hrow⟩ : ∃ l : Ledger PoolToken,
      Ledger.start {} ⟨1⟩ (some ⟨2⟩) .empty .epoch = .ok l ∧
        (l.after repostedRun).commitment? ⟨0⟩ = some repostedRow :=
    ⟨_, rfl, by decide +kernel⟩
  obtain ⟨hself, htime, hput⟩ := claimTime_of_posted hstart repostedRun ⟨0⟩
  exact ⟨l, hstart, hrow, hself, htime _ hrow, hput⟩

/-- The second root is put in force without a time for claims: they would open after the
deadline. -/
theorem not_claimable_of_reposted : ∃ l : Ledger PoolToken,
    Ledger.start {} ⟨1⟩ (some ⟨2⟩) .empty .epoch = .ok l ∧ InOrder repostedRun ∧
      WithinTime {} ⟨0⟩ (l.granted repostedRun) ∧
      (l.after repostedRun).commitment? ⟨0⟩ = some repostedRow ∧ repostedRow.dispute = none ∧
      ¬ repostedRow.postedAt.after l.claimPolicy.claimDelay ≤ repostedRow.claimDeadline ∧
      ∀ t c, (l.after repostedRun).commitments.claimable (l.after repostedRun).claimPolicy ⟨0⟩ t ≠
        .ok c := by
  obtain ⟨l, hstart, hordered, hwithin, hrow, hlate, hpolicy⟩ : ∃ l : Ledger PoolToken,
      Ledger.start {} ⟨1⟩ (some ⟨2⟩) .empty .epoch = .ok l ∧ InOrder repostedRun ∧
        WithinTime {} ⟨0⟩ (l.granted repostedRun) ∧
        (l.after repostedRun).commitment? ⟨0⟩ = some repostedRow ∧
        (¬ repostedRow.postedAt.after l.claimPolicy.claimDelay ≤ repostedRow.claimDeadline) ∧
        (l.after repostedRun).claimPolicy = l.claimPolicy :=
    ⟨_, rfl, by decide +kernel, by decide +kernel, by decide +kernel, by decide +kernel, rfl⟩
  refine ⟨l, hstart, hordered, hwithin, hrow, rfl, hlate, fun t c hclaimable => hlate ?_⟩
  obtain ⟨hrow', -, hopen, hdeadline⟩ := CommitmentBook.claimable_eq_ok_iff.1 hclaimable
  obtain rfl : repostedRow = c := Option.some.inj (hrow.symm.trans hrow')
  rw [hpolicy] at hopen
  exact Timestamp.le_trans hopen hdeadline

end Ledger

end Settlement
