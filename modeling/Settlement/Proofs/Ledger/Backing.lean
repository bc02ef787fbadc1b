import Mathlib.Data.List.Nodup
import Settlement.Proofs.Ledger.History
import Settlement.Proofs.Ledger.LossBound
import Settlement.Proofs.Ledger.Posting

namespace Settlement

/-- The call is for a commitment of this claimant for this period. -/
def Call.commitsTo (who : Address) (p : PeriodId) (call : Call) : Bool :=
  match call.request with
  | .commitClaim period _ => call.ctx.caller = who ∧ period = p
  | _ => false

namespace Ledger

variable {τ : Type} {l l' : Ledger τ} {who : Address} {p : PeriodId}

theorem Controlled.commit_cases {ctx : CallContext} {request : Request} {answer : Answer}
    (h : Controlled l ctx request answer l') {opened : ClaimCommit}
    (hget : l'.commits.get? who p = some opened) :
    (Call.commitsTo who p ⟨ctx, request⟩ = false ∧ l.commits.get? who p = some opened) ∨
      (ctx.caller = who ∧ request = .commitClaim p opened.digest ∧ opened.block = ctx.block) := by
  cases h with
  | @committed period digest =>
    rw [CommitBook.get?_commit] at hget
    split at hget
    · next heq =>
      cases hget
      exact .inr ⟨heq.1.symm, by rw [heq.2], rfl⟩
    · next hother =>
      refine .inl ⟨decide_eq_false fun heq => hother ⟨heq.1.symm, heq.2.symm⟩, hget⟩
  | resumed =>
    split at hget
    · exact .inl ⟨rfl, hget⟩
    · exact .inl ⟨rfl, hget⟩
  | governed hchange =>
    cases request with
    | commitClaim _ _ => cases hchange
    | _ => exact .inl ⟨rfl, hget⟩
  | _ => exact .inl ⟨rfl, hget⟩

/-- Two occurrences of a request in one run are the same, or one comes after the other. -/
theorem occurrence_cases {before before' rest rest' : List (Event τ)} {call call' : Call}
    (h : before ++ .request call :: rest = before' ++ .request call' :: rest') :
    (before = before' ∧ call = call') ∨ (∃ between, before' = before ++ .request call :: between) ∨
      ∃ between, before = before' ++ .request call' :: between := by
  rcases List.append_eq_append_iff.1 h with ⟨between, rfl, hrest⟩ | ⟨between, rfl, hrest⟩
  · cases between with
    | nil =>
      cases hrest
      exact .inl ⟨(List.append_nil _).symm, rfl⟩
    | cons event between =>
      cases hrest
      exact .inr (.inl ⟨between, rfl⟩)
  · cases between with
    | nil =>
      cases hrest
      exact .inl ⟨List.append_nil _, rfl⟩
    | cons event between =>
      cases hrest
      exact .inr (.inr ⟨between, rfl⟩)

variable [PayoutToken τ]

theorem PaidOut.get?_commits {claimant : Address} {reserved : List Reservation} {total : Amount}
    {outcome : Outcome τ (TransferReceipt × List Amount)}
    (h : PaidOut l claimant reserved total outcome) {opened : ClaimCommit}
    (hget : outcome.2.commits.get? who p = some opened) :
    l.commits.get? who p = some opened := by
  cases h with
  | unsent | takenBack => exact hget
  | kept | accepted =>
    rw [get?_commits_settle] at hget
    split at hget
    · cases hget
    · exact hget

/-- The claimant commits to a claim for the period, and is granted it. -/
structure Opens (l : Ledger τ) (commit : Call) (who : Address) (p : PeriodId)
    (opened : ClaimCommit) : Prop where
  caller : commit.ctx.caller = who
  request : commit.request = .commitClaim p opened.digest
  granted : l.grant commit = [commit]
  block : opened.block = commit.ctx.block

/-- The request of a call, if it is granted and commits this claimant for this period. -/
def commitment (who : Address) (p : PeriodId) (l : Ledger τ) (call : Call) : List Call :=
  if call.commitsTo who p then l.grant call else []

/-- The granted commitments of a claimant for a period in a run. -/
def commitmentsOf (who : Address) (p : PeriodId) (l : Ledger τ) (events : List (Event τ)) :
    List Call :=
  l.gather (commitment who p) events

theorem commitment_of_not_commitsTo {call : Call} (h : call.commitsTo who p = false) :
    l.commitment who p call = [] := by
  simp [commitment, h]

theorem commitment_of_refused {call : Call} (h : l.grant call = []) :
    l.commitment who p call = [] := by
  simp [commitment, h]

theorem opens_or_open {call : Call} {opened : ClaimCommit}
    (hget : (l.step call).commits.get? who p = some opened) :
    Opens l call who p opened ∨
      (l.commitment who p call = [] ∧ l.commits.get? who p = some opened) := by
  obtain ⟨ctx, request⟩ := call
  have hhandled := handled l ctx request
  change (l.handle ctx request).2.commits.get? who p = some opened at hget
  generalize houtcome : l.handle ctx request = outcome at hhandled hget
  cases hhandled with
  | refused e =>
    have hgrant : l.grant ⟨ctx, request⟩ = [] :=
      if_neg (by simp [houtcome, Except.isOk, Except.toBool])
    exact .inr ⟨commitment_of_refused hgrant, hget⟩
  | quiet hcontrolled =>
    have hgrant : l.grant ⟨ctx, request⟩ = [⟨ctx, request⟩] := if_pos (by rw [houtcome]; rfl)
    rcases hcontrolled.commit_cases hget with ⟨hother, hbefore⟩ | ⟨hcaller, hrequest, hblock⟩
    · exact .inr ⟨commitment_of_not_commitsTo hother, hbefore⟩
    · exact .inl ⟨hcaller, hrequest, hgrant, hblock⟩
  | claimed | batchClaimed =>
    exact .inr ⟨commitment_of_not_commitsTo rfl, (paidOut ..).get?_commits hget⟩
  | _ => exact .inr ⟨commitment_of_not_commitsTo rfl, hget⟩

/-- An open commitment is the last one that was granted to its claimant for its period. -/
theorem opened_of_commits (hnone : l.commits.get? who p = none) {events : List (Event τ)}
    {opened : ClaimCommit} (h : (l.after events).commits.get? who p = some opened) :
    ∃ first commit second, events = first ++ .request commit :: second ∧
      Opens (l.after first) commit who p opened ∧
      ((l.after first).step commit).commitmentsOf who p second = [] :=
  exists_last_of_after (v := fun l => l.commits.get? who p) (fun _ _ _ => opens_or_open)
    (fun _ _ => rfl) hnone h

theorem hasClaimed_step (h : l.hasClaimed who p = true) (call : Call) :
    (l.step call).hasClaimed who p = true := by
  cases pays l call with
  | none _ _ hregistry =>
    unfold hasClaimed
    rw [hregistry]
    exact h
  | once _ _ _ _ _ _ hstep =>
    rw [hstep]
    exact hasClaimed_settle.2 (.inr h)

theorem hasClaimed_after (h : l.hasClaimed who p = true) (events : List (Event τ)) :
    (l.after events).hasClaimed who p = true := by
  refine after_of_next (P := fun l => l.hasClaimed who p = true) (fun l event h => ?_) h events
  cases event with
  | request call => exact hasClaimed_step h call
  | token change => exact h

theorem PaidOut.commits_eq {claimant : Address} {reserved : List Reservation} {total : Amount}
    {outcome : Outcome τ (TransferReceipt × List Amount)}
    (h : PaidOut l claimant reserved total outcome) (hpayable : l.Payable claimant reserved)
    (hne : reserved ≠ []) (hregistry : outcome.2.registry = l.registry) :
    outcome.2.commits = l.commits := by
  cases h with
  | unsent | takenBack => rfl
  | kept | accepted => exact absurd hregistry (registry_settle_ne hpayable hne)

/-- A call that is refused and leaves no transfer standing closes no commitment, so a reveal that
comes to nothing can be made again. -/
theorem commits_step_of_error {call : Call} {e : Error}
    (herror : (l.handle call.ctx call.request).1 = .error e) (hpayouts : l.payouts call = []) :
    (l.step call).commits = l.commits := by
  have hregistry : (l.step call).registry = l.registry := by
    cases pays l call with
    | none _ _ hregistry => exact hregistry
    | once _ _ _ _ _ hpaid => rw [hpayouts] at hpaid; cases hpaid
  obtain ⟨ctx, request⟩ := call
  have hhandled := handled l ctx request
  change (l.handle ctx request).2.registry = l.registry at hregistry
  change (l.handle ctx request).2.commits = l.commits
  generalize l.handle ctx request = outcome at herror hhandled hregistry ⊢
  cases hhandled with
  | quiet | deposited | emptied | swept => cases herror
  | claimed hpassed =>
    exact (paidOut ..).commits_eq (payable_of_admitOne hpassed)
      (isTotal_of_admitOne hpassed).nonempty hregistry
  | batchClaimed _ hpassed =>
    exact (paidOut ..).commits_eq (payable_of_admitAll hpassed)
      (isTotal_of_admitAll hpassed).nonempty hregistry
  | _ => rfl

/-- What a paid claim establishes: it was unmarked, it is marked now, and its commitment is
closed. -/
structure Discharged (l : Ledger τ) (call : Call) (claim : Reservation) : Prop where
  unclaimed : l.hasClaimed call.ctx.caller claim.1 = false
  claimed : (l.step call).hasClaimed call.ctx.caller claim.1 = true
  closed : (l.step call).commits.get? call.ctx.caller claim.1 = none

theorem claimant_of_mem_payouts {call : Call} {payout : Payout} (h : payout ∈ l.payouts call) :
    payout.claimant = call.ctx.caller := by
  obtain ⟨receipt, -, rfl⟩ := List.mem_map.1 h
  rfl

/-- A claim that is paid establishes this, also when the token keeps a payment that the ledger has
refused. -/
theorem discharged_of_mem_payouts {call : Call} {payout : Payout}
    (hpayout : payout ∈ l.payouts call) {claim : Reservation} (hclaim : claim ∈ payout.claims) :
    Discharged l call claim := by
  cases pays l call with
  | none hpayouts =>
    rw [hpayouts payout hpayout] at hclaim
    cases hclaim
  | once receipt losses token hpayable _ hpayouts hstep =>
    rw [hpayouts, List.mem_singleton] at hpayout
    subst hpayout
    have hperiod : claim.1 ∈ call.request.claims.map Prod.fst := List.mem_map_of_mem hclaim
    refine ⟨hpayable.unclaimed claim hclaim, ?_, ?_⟩
    · rw [hstep]
      exact hasClaimed_settle.2 (.inl ⟨rfl, hperiod⟩)
    · rw [hstep, get?_commits_settle, if_pos ⟨rfl, hperiod⟩]

/-- A claim that is paid in a run, with the commitment that it is paid against: the last one of its
claimant for its period, granted in an earlier block than that of the reveal, and to what the reveal
reveals. -/
structure Committed (l : Ledger τ) (domain : Domain) (first : List (Event τ)) (commit : Call)
    (second : List (Event τ)) (reveal : Call) (entry : ClaimEntry) : Prop where
  revealed : entry ∈ reveal.request.entries
  paid : ∃ payout ∈ (l.after (first ++ .request commit :: second)).payouts reveal,
    payout.claimant = reveal.ctx.caller ∧ entry.reservation ∈ payout.claims
  caller : commit.ctx.caller = reveal.ctx.caller
  request : commit.request = .commitClaim entry.period
    (Claim.commitment ⟨domain, reveal.ctx.caller, entry.period, entry.amount⟩ entry.nonce)
  granted : (l.after first).grant commit = [commit]
  earlier : commit.ctx.block < reveal.ctx.block
  last : ((l.after first).step commit).commitmentsOf reveal.ctx.caller entry.period second = []

/-- Every paid claim has such a commitment. A reveal is admitted against an open commitment only,
and an open commitment stems from the last one that was granted. -/
theorem exists_committed {domain : Domain} (hdomain : l.domain = domain)
    (hnone : ∀ who p, l.commits.get? who p = none) {before : List (Event τ)} {reveal : Call}
    {payout : Payout} (hpayout : payout ∈ (l.after before).payouts reveal)
    {claim : Reservation} (hclaim : claim ∈ payout.claims) :
    ∃ entry first commit second, entry.reservation = claim ∧
      before = first ++ .request commit :: second ∧
      Committed l domain first commit second reveal entry := by
  obtain ⟨hclaims, total, hadmitted⟩ :=
    admitted_of_mem_payouts hpayout (List.ne_nil_of_mem hclaim)
  have hmem : claim ∈ reveal.request.entries.map ClaimEntry.reservation := by
    rw [← (valid_of_admitted? hadmitted).1, ← hclaims]
    exact hclaim
  obtain ⟨entry, hentry, rfl⟩ := List.mem_map.1 hmem
  obtain ⟨opened, hget, hearlier, hdigest⟩ := validReveal_of_admitted? hadmitted entry hentry
  obtain ⟨first, commit, second, rfl, hopens, hlast⟩ := opened_of_commits (hnone _ _) hget
  refine ⟨entry, first, commit, second, rfl, rfl, hentry,
    ⟨payout, hpayout, claimant_of_mem_payouts hpayout, hclaim⟩, hopens.caller, ?_, hopens.granted,
    ?_, hlast⟩
  · rw [hopens.request, ← hdigest, (samePolicy_after l _).domain, hdomain]
  · rw [← hopens.block]
    exact hearlier

theorem not_paid_again {before between : List (Event τ)} {reveal again : Call}
    {payout payout' : Payout} {claim claim' : Reservation}
    (hpaid : payout ∈ (l.after before).payouts reveal) (hclaim : claim ∈ payout.claims)
    (hagain : payout' ∈ (l.after (before ++ .request reveal :: between)).payouts again)
    (hclaim' : claim' ∈ payout'.claims) (hcaller : again.ctx.caller = reveal.ctx.caller) :
    claim'.1 ≠ claim.1 := by
  intro hperiod
  have hmarked := hasClaimed_after (discharged_of_mem_payouts hpaid hclaim).claimed between
  have hfree := (discharged_of_mem_payouts hagain hclaim').unclaimed
  rw [after_append, hcaller, hperiod] at hfree
  exact Bool.false_ne_true (hfree.symm.trans hmarked)

theorem eq_of_period_eq {reveal : Call} {payout : Payout} (hpayout : payout ∈ l.payouts reveal)
    (hclaims : payout.claims ≠ []) {entry entry' : ClaimEntry}
    (hentry : entry ∈ reveal.request.entries) (hentry' : entry' ∈ reveal.request.entries)
    (hperiod : entry.period = entry'.period) : entry = entry' := by
  obtain ⟨-, total, hadmitted⟩ := admitted_of_mem_payouts hpayout hclaims
  have hnodup := (handle_of_admitted? hadmitted).1.nodup
  rw [(valid_of_admitted? hadmitted).1, List.map_map] at hnodup
  exact List.inj_on_of_nodup_map hnodup hentry hentry' hperiod

/-- A commitment backs one paid claim, since the payment marks the claimant for the period. -/
theorem committed_once {domain : Domain} {first second second' rest rest' : List (Event τ)}
    {commit reveal reveal' : Call} {entry entry' : ClaimEntry}
    (hsplit : first ++ .request commit :: second ++ .request reveal :: rest =
      first ++ .request commit :: second' ++ .request reveal' :: rest')
    (h : Committed l domain first commit second reveal entry)
    (h' : Committed l domain first commit second' reveal' entry') :
    second = second' ∧ reveal = reveal' ∧ entry = entry' := by
  have hcaller : reveal.ctx.caller = reveal'.ctx.caller := h.caller.symm.trans h'.caller
  have hperiod : entry.period = entry'.period :=
    (Request.commitClaim.inj (h.request.symm.trans h'.request)).1
  obtain ⟨payout, hpayout, -, hclaim⟩ := h.paid
  obtain ⟨payout', hpayout', -, hclaim'⟩ := h'.paid
  rcases occurrence_cases hsplit with ⟨hbefore, rfl⟩ | ⟨between, hbetween⟩ | ⟨between, hbetween⟩
  · obtain rfl : second = second' := by simpa using hbefore
    exact ⟨rfl, rfl,
      eq_of_period_eq hpayout (List.ne_nil_of_mem hclaim) h.revealed h'.revealed hperiod⟩
  · rw [hbetween] at hpayout'
    exact absurd hperiod.symm (not_paid_again hpayout hclaim hpayout' hclaim' hcaller.symm)
  · rw [hbetween] at hpayout
    exact absurd hperiod (not_paid_again hpayout' hclaim' hpayout hclaim hcaller)

variable {policy : ProtocolPolicy} {authority : Address} {guardian : Option Address} {token : τ}
  {now : Timestamp}

/-- A claim is committed to before it is revealed, and once. In every run each paid claim, made
alone or with others, was committed to by its claimant for its period with the digest of what is
revealed, in an earlier block, and not committed to again before the reveal; the payment closes the
commitment, and no commitment backs two paid claims. A call that is refused, and whose transfer if
any was taken back, leaves all commitments as they are. -/
theorem committed_before_revealed
    (hstart : Ledger.start policy authority guardian token now = .ok l) (events : List (Event τ)) :
    (∀ before reveal rest, events = before ++ .request reveal :: rest →
      ∀ payout ∈ (l.after before).payouts reveal, ∀ claim ∈ payout.claims,
        (∃ entry first commit second, entry.reservation = claim ∧
          before = first ++ .request commit :: second ∧
          Committed l policy.domain first commit second reveal entry) ∧
        ((l.after before).step reveal).commits.get? payout.claimant claim.1 = none) ∧
    (∀ first commit second rest second' rest' reveal reveal' entry entry',
      events = first ++ .request commit :: second ++ .request reveal :: rest →
      events = first ++ .request commit :: second' ++ .request reveal' :: rest' →
      Committed l policy.domain first commit second reveal entry →
      Committed l policy.domain first commit second' reveal' entry' →
      second = second' ∧ reveal = reveal' ∧ entry = entry') ∧
    ∀ before reveal rest e, events = before ++ .request reveal :: rest →
      ((l.after before).handle reveal.ctx reveal.request).1 = .error e →
      (l.after before).payouts reveal = [] →
      ((l.after before).step reveal).commits = (l.after before).commits := by
  obtain ⟨-, governance, era, -, -, rfl⟩ := eq_of_start hstart
  refine ⟨?_, ?_, ?_⟩
  · rintro before reveal rest rfl payout hpayout claim hclaim
    rw [claimant_of_mem_payouts hpayout]
    exact ⟨exists_committed rfl (fun _ _ => rfl) hpayout hclaim,
      (discharged_of_mem_payouts hpayout hclaim).closed⟩
  · rintro first commit second rest second' rest' reveal reveal' entry entry' rfl hsplit h h'
    exact committed_once hsplit h h'
  · rintro before reveal rest e rfl herror hpayouts
    exact commits_step_of_error herror hpayouts

/-- Three claims are paid by one reveal, each against a commitment of its own. -/
theorem committed_before_revealed_of_uneven :
    Ledger.start { claims := { minClaimAmount := 1 } } ⟨1⟩ none unevenStart.token .epoch =
        .ok unevenStart ∧
      ∃ payout ∈ (unevenStart.after unevenEvents).payouts unevenReveal,
        ∃ claim ∈ payout.claims, claim = (⟨2⟩, 1) ∧
          (∃ entry first commit second, entry.reservation = claim ∧
            unevenEvents = first ++ .request commit :: second ∧
            Committed unevenStart {} first commit second unevenReveal entry) ∧
          ((unevenStart.after unevenEvents).step unevenReveal).commits.get? payout.claimant
            claim.1 = none := by
  have hstart : Ledger.start { claims := { minClaimAmount := 1 } } ⟨1⟩ none unevenStart.token
      .epoch = .ok unevenStart := rfl
  obtain ⟨payout, hpayout, hclaims⟩ := exists_payout_of_ok answer_uneven (by decide)
  have hmem : (⟨2⟩, 1) ∈ payout.claims := by
    rw [hclaims]
    decide
  exact ⟨hstart, payout, hpayout, _, hmem, rfl,
    (committed_before_revealed hstart unevenRun).1 unevenEvents unevenReveal [] rfl payout hpayout
      _ hmem⟩

end Ledger

end Settlement
