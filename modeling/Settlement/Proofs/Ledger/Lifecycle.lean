import Settlement.Proofs.Ledger.Moved

namespace Settlement

/-- Whether the request moves money of a period. Once the period is swept no such request is
granted. -/
def Request.concerns (p : PeriodId) : Request → Bool
  | .deposit period _ => period = p
  | .sweepPeriod period _ => period = p
  | .revealClaim entry => entry.period = p
  | .revealClaimBatch periods _ _ _ => p ∈ periods
  | _ => false

namespace Ledger

variable {τ : Type} {l l' : Ledger τ} {claims : ClaimPolicy}

/-- What every reachable state says about the stages of its periods. A period is closed, its root is
posted, its claims are paid, and in the end what is left of it is swept. -/
structure Orderly (claims : ClaimPolicy) (l : Ledger τ) : Prop where
  policy : l.claimPolicy = claims
  closed : ∀ p c, l.commitment? p = some c → p < l.era.current
  deadline : ∀ p c, l.commitment? p = some c →
    c.claimDeadline = c.firstPostedAt.after claims.claimWindow
  claimed : ∀ p, (l.periodFund p).claimed ≠ 0 → ∃ c, l.commitment? p = some c
  marked : ∀ who p, l.hasClaimed who p = true → ∃ c, l.commitment? p = some c
  committed : ∀ who p commit, l.commits.get? who p = some commit → ∃ c, l.commitment? p = some c
  exclusive : ∀ who p, l.hasClaimed who p = true → l.commits.get? who p = none
  swept : ∀ p t, (l.periodFund p).sweptAt = some t →
    ∃ c, l.commitment? p = some c ∧ c.claimDeadline.after claims.sweepDelay ≤ t
  emptied : ∀ p, (l.periodFund p).isSwept = true → l.remaining p = 0

theorem Orderly.posted_of_isSwept (h : Orderly claims l) {p : PeriodId}
    (hswept : (l.periodFund p).isSwept = true) : ∃ c, l.commitment? p = some c := by
  obtain ⟨t, ht⟩ := Option.isSome_iff_exists.1 hswept
  obtain ⟨c, hc, -⟩ := h.swept p t ht
  exact ⟨c, hc⟩

/-- What stays of a period once its root is posted, and once it is swept. -/
structure Kept (p : PeriodId) (l l' : Ledger τ) : Prop where
  posted : ∀ c, l.commitment? p = some c →
    (∃ c', l'.commitment? p = some c' ∧ c'.firstPostedAt = c.firstPostedAt ∧
      c'.claimDeadline = c.claimDeadline) ∧
    (l'.periodFund p).deposited = (l.periodFund p).deposited
  swept : (l.periodFund p).isSwept = true → l'.periodFund p = l.periodFund p

theorem Kept.refl (p : PeriodId) (l : Ledger τ) : Kept p l l :=
  ⟨fun c hc => ⟨⟨c, hc, rfl, rfl⟩, rfl⟩, fun _ => rfl⟩

theorem Kept.trans {p : PeriodId} {l'' : Ledger τ} (h : Kept p l l') (h' : Kept p l' l'') :
    Kept p l l'' := by
  refine ⟨fun c hc => ?_, fun hswept => ?_⟩
  · obtain ⟨⟨c', hc', hfirst, hdeadline⟩, hdeposited⟩ := h.posted c hc
    obtain ⟨⟨c'', hc'', hfirst', hdeadline'⟩, hdeposited'⟩ := h'.posted c' hc'
    exact ⟨⟨c'', hc'', hfirst'.trans hfirst, hdeadline'.trans hdeadline⟩,
      hdeposited'.trans hdeposited⟩
  · have hfund := h.swept hswept
    exact (h'.swept (hfund ▸ hswept)).trans hfund

theorem SameTerms.commitment? (h : SameTerms l l') (p : PeriodId) :
    l'.commitment? p = l.commitment? p :=
  congrArg (fun commitments : CommitmentBook => commitments.get? p) h.commitments

private theorem Orderly.of_same (h : Orderly claims l) (hsame : SameClaims l l')
    (hclaimed : ∀ p, (l'.periodFund p).claimed ≠ 0 → ∃ c, l.commitment? p = some c)
    (hswept : ∀ p t, (l'.periodFund p).sweptAt = some t →
      ∃ c, l.commitment? p = some c ∧ c.claimDeadline.after claims.sweepDelay ≤ t)
    (hemptied : ∀ p, (l'.periodFund p).isSwept = true → l'.remaining p = 0) :
    Orderly claims l' := by
  have hrow := hsame.terms.commitment?
  have hmarks (who : Address) (p : PeriodId) : l'.hasClaimed who p = l.hasClaimed who p :=
    congrArg (fun registry : ClaimRegistry => registry.hasClaimed who p) hsame.registry
  refine ⟨hsame.terms.policy.claims.trans h.policy, ?_, ?_, ?_, ?_, ?_, ?_, ?_, hemptied⟩
  · intro p c hc
    rw [hsame.terms.era]
    exact h.closed p c (hrow p ▸ hc)
  · intro p c hc
    exact h.deadline p c (hrow p ▸ hc)
  · intro p hne
    rw [hrow]
    exact hclaimed p hne
  · intro who p hmarked
    rw [hrow]
    exact h.marked who p (hmarks who p ▸ hmarked)
  · intro who p commit hget
    rw [hsame.commits] at hget
    rw [hrow]
    exact h.committed who p commit hget
  · intro who p hmarked
    rw [hsame.commits]
    exact h.exclusive who p (hmarks who p ▸ hmarked)
  · intro p t ht
    rw [hrow]
    exact hswept p t ht

private theorem Orderly.controlled (h : Orderly claims l) {ctx : CallContext} {request : Request}
    {answer : Answer} (hcontrolled : Controlled l ctx request answer l') : Orderly claims l' := by
  obtain ⟨hfunds, hregistry, -⟩ := hcontrolled.money
  have hfund (p : PeriodId) : l'.periodFund p = l.periodFund p :=
    congrArg (fun b : FundBook => b.fund p) hfunds
  have hmarks (who : Address) (p : PeriodId) : l'.hasClaimed who p = l.hasClaimed who p :=
    congrArg (fun registry : ClaimRegistry => registry.hasClaimed who p) hregistry
  have hstays (p : PeriodId) (hposted : ∃ c, l.commitment? p = some c) :
      ∃ c, l'.commitment? p = some c := by
    obtain ⟨c, hc⟩ := hposted
    obtain ⟨c', hc', -⟩ := (hcontrolled.reposts p).keeps hc
    exact ⟨c', hc'⟩
  have horigin (p : PeriodId) (c : Commitment) (hc : l'.commitment? p = some c) :
      p < l.era.current ∧ c.claimDeadline = c.firstPostedAt.after claims.claimWindow := by
    have hreposts := hcontrolled.reposts p
    cases hold : l.commitment? p with
    | some old =>
      obtain ⟨c', hc', hfirst, hdeadline⟩ := hreposts.keeps hold
      rw [hc, Option.some.injEq] at hc'
      subst hc'
      rw [hfirst, hdeadline]
      exact ⟨h.closed p old hold, h.deadline p old hold⟩
    | none =>
      rw [hc] at hreposts
      obtain ⟨hclosed, root, -, rfl⟩ := hreposts.origin hold
      rw [h.policy]
      exact ⟨of_decide_eq_true hclosed, rfl⟩
  refine ⟨hcontrolled.samePolicy.claims.trans h.policy, ?_, ?_, ?_, ?_, ?_, ?_, ?_, ?_⟩
  · intro p c hc
    exact hcontrolled.eraMoved.lt_current (horigin p c hc).1
  · intro p c hc
    exact (horigin p c hc).2
  · intro p hne
    rw [hfund] at hne
    exact hstays p (h.claimed p hne)
  · intro who p hmarked
    rw [hmarks] at hmarked
    exact hstays p (h.marked who p hmarked)
  · intro who p commit hget
    rcases hcontrolled.commits hget with hget | ⟨hcontains, -⟩
    · exact hstays p (h.committed who p commit hget)
    · exact hstays p (CommitmentBook.contains_iff.1 hcontains)
  · intro who p hmarked
    rw [hmarks] at hmarked
    rw [Option.eq_none_iff_forall_ne_some]
    intro commit hget
    rcases hcontrolled.commits hget with hget | ⟨-, hunclaimed⟩
    · rw [h.exclusive who p hmarked] at hget
      cases hget
    · rw [hmarked] at hunclaimed
      cases hunclaimed
  · intro p t ht
    rw [hfund] at ht
    obtain ⟨c, hc, hlate⟩ := h.swept p t ht
    obtain ⟨c', hc', -, hdeadline⟩ := (hcontrolled.reposts p).keeps hc
    exact ⟨c', hc', hdeadline ▸ hlate⟩
  · intro p hswept
    rw [hfund] at hswept
    have hremaining := h.emptied p hswept
    change (l'.periodFund p).remaining = 0
    rw [hfund]
    exact hremaining

private theorem Orderly.not_swept (h : Orderly claims l) {who : Address}
    {reserved : List Reservation} (hpayable : l.Payable who reserved)
    (hpositive : ∀ claim ∈ reserved, claim.2 ≠ 0) {claim : Reservation} (hmem : claim ∈ reserved) :
    (l.periodFund claim.1).isSwept = false := by
  obtain ⟨p, amount⟩ := claim
  rw [← Bool.not_eq_true]
  intro hswept
  have hremaining : (l.periodFund p).remaining.val = (0 : Amount).val :=
    congrArg Word.val (h.emptied p hswept)
  have hroom := hpayable.claimed_add_le hmem
  have hamount : 0 < amount.val := Word.pos_of_ne_zero (hpositive _ hmem)
  unfold periodFund at hremaining
  rw [PeriodFund.val_remaining, Word.val_zero] at hremaining
  omega

private theorem fund_settle {who : Address} {reserved : List Reservation} {losses : List Amount}
    (hpayable : l.Payable who reserved) (hlength : losses.length = reserved.length) (token : τ)
    (p : PeriodId) : ∃ claimed precisionLoss,
      (l.settle who reserved losses token).periodFund p =
        { l.periodFund p with claimed, precisionLoss } := by
  unfold periodFund
  by_cases hp : p ∈ reserved.map Prod.fst
  · obtain ⟨⟨q, amount⟩, hmem, rfl⟩ := List.mem_map.1 hp
    obtain ⟨loss, -, hfund⟩ := fund_settle_of_mem hpayable hlength token hmem
    exact ⟨_, _, hfund⟩
  · rw [fund_settle_of_not_mem hp]
    exact ⟨_, _, rfl⟩

private theorem Orderly.settle (h : Orderly claims l) {who : Address}
    {reserved : List Reservation} {losses : List Amount} (hpayable : l.Payable who reserved)
    (hpositive : ∀ claim ∈ reserved, claim.2 ≠ 0)
    (hposted : ∀ claim ∈ reserved, ∃ c, l.commitment? claim.1 = some c)
    (hlength : losses.length = reserved.length) (token : τ) :
    Orderly claims (l.settle who reserved losses token) := by
  have hpaid {p : PeriodId} (hp : p ∈ reserved.map Prod.fst) : ∃ c, l.commitment? p = some c := by
    obtain ⟨claim, hmem, rfl⟩ := List.mem_map.1 hp
    exact hposted claim hmem
  refine ⟨h.policy, h.closed, h.deadline, ?_, ?_, ?_, ?_, ?_, ?_⟩
  · intro p hne
    by_cases hp : p ∈ reserved.map Prod.fst
    · exact hpaid hp
    · unfold periodFund at hne
      rw [fund_settle_of_not_mem hp] at hne
      exact h.claimed p hne
  · intro claimant p hmarked
    rcases hasClaimed_settle.1 hmarked with ⟨-, hp⟩ | hmarked
    · exact hpaid hp
    · exact h.marked claimant p hmarked
  · intro claimant p commit hget
    rw [get?_commits_settle] at hget
    split at hget
    · cases hget
    · exact h.committed claimant p commit hget
  · intro claimant p hmarked
    rw [get?_commits_settle]
    rcases hasClaimed_settle.1 hmarked with hnow | hmarked
    · rw [if_pos hnow]
    · rw [h.exclusive claimant p hmarked, ite_self]
  · intro p t ht
    obtain ⟨claimed, precisionLoss, hfund⟩ := fund_settle hpayable hlength token p
    rw [hfund] at ht
    exact h.swept p t ht
  · intro p hswept
    have hsame : (l.settle who reserved losses token).periodFund p = l.periodFund p := by
      obtain ⟨claimed, precisionLoss, hfund⟩ := fund_settle hpayable hlength token p
      rw [hfund] at hswept
      apply fund_settle_of_not_mem
      intro hp
      obtain ⟨claim, hmem, rfl⟩ := List.mem_map.1 hp
      have hopen := h.not_swept hpayable hpositive hmem
      rw [show (l.periodFund claim.1).isSwept = true from hswept] at hopen
      cases hopen
    rw [hsame] at hswept
    change ((l.settle who reserved losses token).periodFund p).remaining = 0
    rw [hsame]
    exact h.emptied p hswept

theorem Orderly.moved {now : Timestamp} (h : Orderly claims l) (hsound : l.Sound)
    (hmoved : Moved l now l') : Orderly claims l' := by
  cases hmoved with
  | controlled hcontrolled => exact h.controlled hcontrolled
  | idle hsame hfunds =>
    refine h.of_same hsame (fun p => ?_) (fun p => ?_) (fun p hswept => ?_)
    · rw [hfunds]
      exact h.claimed p
    · rw [hfunds]
      exact h.swept p
    · rw [hfunds] at hswept
      change (l'.periodFund p).remaining = 0
      rw [hfunds]
      exact h.emptied p hswept
  | @deposited period total hsame hunposted hfunds =>
    have hunswept : (l.periodFund period).isSwept ≠ true := by
      intro hswept
      obtain ⟨c, hc⟩ := h.posted_of_isSwept hswept
      rw [hunposted] at hc
      cases hc
    refine h.of_same hsame (fun p => ?_) (fun p => ?_) (fun p hswept => ?_)
    · rw [hfunds]
      split
      · next heq => exact heq ▸ h.claimed period
      · exact h.claimed p
    · rw [hfunds]
      split
      · next heq => exact heq ▸ h.swept period
      · exact h.swept p
    · change (l'.periodFund p).remaining = 0
      rw [hfunds] at hswept ⊢
      split at hswept
      · exact absurd hswept hunswept
      · next hne => rw [if_neg hne]; exact h.emptied p hswept
  | @swept period c hsame hposted hlate hopen hfunds =>
    refine h.of_same hsame (fun p => ?_) (fun p t ht => ?_) (fun p hswept => ?_)
    · rw [hfunds]
      split
      · next heq => exact heq ▸ h.claimed period
      · exact h.claimed p
    · rw [hfunds] at ht
      split at ht
      · next heq =>
        cases ht
        exact heq ▸ ⟨c, hposted, h.policy ▸ hlate⟩
      · exact h.swept p t ht
    · change (l'.periodFund p).remaining = 0
      rw [hfunds] at hswept ⊢
      split
      · exact Word.val_eq_zero_iff.1 (PeriodFund.val_remaining_sweep (hsound period) hopen now)
      · next hne =>
        rw [if_neg hne] at hswept
        exact h.emptied p hswept
  | settled hpayable hpositive hposted hlength hsettle =>
    rw [hsettle]
    exact h.settle hpayable hpositive hposted hlength _

theorem Orderly.kept {now : Timestamp} (h : Orderly claims l) (hmoved : Moved l now l')
    (p : PeriodId) : Kept p l l' := by
  have hrow (hterms : SameTerms l l') (c : Commitment) (hc : l.commitment? p = some c) :
      ∃ c', l'.commitment? p = some c' ∧ c'.firstPostedAt = c.firstPostedAt ∧
        c'.claimDeadline = c.claimDeadline := ⟨c, (hterms.commitment? p).trans hc, rfl, rfl⟩
  cases hmoved with
  | controlled hcontrolled =>
    have hfund : l'.periodFund p = l.periodFund p :=
      congrArg (fun b : FundBook => b.fund p) hcontrolled.money.1
    exact ⟨fun c hc => ⟨(hcontrolled.reposts p).keeps hc, congrArg PeriodFund.deposited hfund⟩,
      fun _ => hfund⟩
  | idle hsame hfunds =>
    exact ⟨fun c hc => ⟨hrow hsame.terms c hc, congrArg PeriodFund.deposited (hfunds p)⟩,
      fun _ => hfunds p⟩
  | @deposited period total hsame hunposted hfunds =>
    have hfund (c : Commitment) (hc : l.commitment? p = some c) :
        l'.periodFund p = l.periodFund p := by
      rw [hfunds, if_neg]
      rintro rfl
      rw [hc] at hunposted
      cases hunposted
    refine ⟨fun c hc => ⟨hrow hsame.terms c hc, congrArg PeriodFund.deposited (hfund c hc)⟩,
      fun hswept => ?_⟩
    obtain ⟨c, hc⟩ := h.posted_of_isSwept hswept
    exact hfund c hc
  | @swept period c hsame hposted hlate hopen hfunds =>
    refine ⟨fun c hc => ⟨hrow hsame.terms c hc, ?_⟩, fun hswept => ?_⟩
    · rw [hfunds]
      split
      · next heq => rw [heq]
      · rfl
    · rw [hfunds, if_neg]
      rintro rfl
      rw [hswept] at hopen
      cases hopen
  | @settled who reserved losses token hpayable hpositive hposted hlength hsettle =>
    subst hsettle
    refine ⟨fun c hc => ⟨⟨c, hc, rfl, rfl⟩, ?_⟩, fun hswept => ?_⟩
    · obtain ⟨claimed, precisionLoss, hfund⟩ := fund_settle hpayable hlength token p
      rw [hfund]
    · apply fund_settle_of_not_mem
      intro hp
      obtain ⟨claim, hmem, rfl⟩ := List.mem_map.1 hp
      have hopen := h.not_swept hpayable hpositive hmem
      rw [hswept] at hopen
      cases hopen

theorem Controlled.concerns {ctx : CallContext} {request : Request} {answer : Answer}
    (h : Controlled l ctx request answer l') (p : PeriodId) : request.concerns p = false := by
  cases h with
  | governed hchange =>
    cases request with
    | deposit _ _ | sweepPeriod _ _ | revealClaim _ | revealClaimBatch _ _ _ _ => cases hchange
    | _ => rfl
  | _ => rfl

section run

variable {policy : ProtocolPolicy} {authority : Address} {guardian : Option Address} {token : τ}
  {now : Timestamp}

theorem orderly_start (hstart : Ledger.start policy authority guardian token now = .ok l) :
    Orderly policy.claims l := by
  obtain ⟨-, governance, era, -, -, rfl⟩ := eq_of_start hstart
  exact {
    policy := rfl
    closed := fun _ _ h => by cases h
    deadline := fun _ _ h => by cases h
    claimed := fun _ h => absurd rfl h
    marked := fun _ _ h => by cases h
    committed := fun _ _ _ h => by cases h
    exclusive := fun _ _ _ => rfl
    swept := fun _ _ h => by cases h
    emptied := fun _ h => by cases h }

variable [PayoutToken τ]

theorem Orderly.refused (h : Orderly claims l) {p : PeriodId}
    (hswept : (l.periodFund p).isSwept = true) {call : Call}
    (hconcerns : call.request.concerns p = true) :
    ∃ e, l.handle call.ctx call.request = (.error e, l) := by
  obtain ⟨ctx, request⟩ := call
  have hhandled := handled l ctx request
  change ∃ e, l.handle ctx request = (.error e, l)
  generalize l.handle ctx request = outcome at hhandled ⊢
  have hposted := h.posted_of_isSwept hswept
  cases hhandled with
  | refused e => exact ⟨e, rfl⟩
  | quiet hcontrolled =>
    rw [hcontrolled.concerns] at hconcerns
    cases hconcerns
  | uncollected hcheck | unrecorded hcheck | deposited hcheck =>
    obtain rfl := of_decide_eq_true hconcerns
    obtain ⟨c, hc⟩ := hposted
    rw [commitment?_of_checkDeposit hcheck] at hc
    cases hc
  | emptied _ hopen | unpaid _ hopen | swept _ hopen =>
    obtain rfl := of_decide_eq_true hconcerns
    rw [show (l.periodFund _).isSwept = false from hopen] at hswept
    cases hswept
  | @claimed entry hpassed =>
    obtain rfl := of_decide_eq_true hconcerns
    have hopen := h.not_swept (payable_of_admitOne hpassed) (isTotal_of_admitOne hpassed).positive
      (List.mem_singleton.2 rfl)
    rw [show (l.periodFund entry.period).isSwept = false from hopen] at hswept
    cases hswept
  | @batchClaimed periods amounts nonces proofs entries total hentries hpassed =>
    obtain ⟨rfl, -⟩ := ClaimEntry.ofLists_eq_ok_iff.1 hentries
    obtain ⟨entry, hmem, rfl⟩ := List.mem_map.1 (of_decide_eq_true hconcerns)
    have hopen := h.not_swept (payable_of_admitAll hpassed) (isTotal_of_admitAll hpassed).positive
      (List.mem_map_of_mem hmem)
    rw [show (l.periodFund entry.period).isSwept = false from hopen] at hswept
    cases hswept

theorem moved_next (hsound : l.Sound) (event : Event τ) : ∃ now, Moved l now (l.next event) := by
  cases event with
  | request call => exact ⟨call.ctx.now, moved hsound call⟩
  | token change =>
    exact ⟨.epoch, .idle ⟨⟨rfl, rfl, rfl, ⟨rfl, rfl, rfl⟩⟩, rfl, rfl⟩ fun _ => rfl⟩

/-- The stages stay in order over every run, whatever is refused or taken back in it. -/
theorem orderly_after (hsound : l.Sound) (h : Orderly claims l) (events : List (Event τ)) :
    (l.after events).Sound ∧ Orderly claims (l.after events) := by
  refine after_of_next (P := fun l => l.Sound ∧ Orderly claims l) ?_ ⟨hsound, h⟩ events
  rintro l event ⟨hsound, h⟩
  obtain ⟨now, hmoved⟩ := moved_next hsound event
  exact ⟨hsound.next event, h.moved hsound hmoved⟩

theorem kept_after (hsound : l.Sound) (h : Orderly claims l) (p : PeriodId)
    (events : List (Event τ)) : Kept p l (l.after events) := by
  induction events generalizing l with
  | nil => exact .refl p l
  | cons event rest ih =>
    obtain ⟨now, hmoved⟩ := moved_next hsound event
    exact (h.kept hmoved p).trans (ih (hsound.next event) (h.moved hsound hmoved))

/-- Periods go through their stages in order. In every reachable state only closed periods have a
root, with a deadline that counts from the first posting; only posted periods have claims, marks,
open commitments of claimants and sweeps; nothing is both paid and open; sweeps come a sweep delay
after the deadline and leave nothing. From the first posting on its time, the deadline and the
deposits are fixed; from the sweep on the whole fund is, and money of the period is not moved. -/
theorem lifecycle_in_order (hstart : Ledger.start policy authority guardian token now = .ok l)
    (events : List (Event τ)) :
    Orderly policy.claims (l.after events) ∧
      (∀ (call : Call) (p : PeriodId) c, (l.after events).commitment? p = none →
        ((l.after events).step call).commitment? p = some c →
          ∃ root, call.request = .postCommitment p root ∧
            c = .first policy.claims p root call.ctx.now) ∧
      (∀ later p, Kept p (l.after events) (l.after (events ++ later))) ∧
      ∀ (call : Call) (p : PeriodId), ((l.after events).periodFund p).isSwept = true →
        call.request.concerns p = true →
          ∃ e, (l.after events).handle call.ctx call.request = (.error e, l.after events) := by
  obtain ⟨hsound, horderly⟩ := orderly_after (fun p => sound_after hstart [] p)
    (orderly_start hstart) events
  refine ⟨horderly, fun call p c hnone hsome => ?_, fun later p => ?_,
    fun call p hswept hconcerns => horderly.refused hswept hconcerns⟩
  · rcases reposts (l.after events) call p with ⟨-, hsame⟩ | ⟨-, hreposts⟩
    · rw [hsame, hnone] at hsome
      cases hsome
    · rw [hsome] at hreposts
      rw [← horderly.policy]
      exact (hreposts.origin hnone).2
  · rw [after_append]
    exact kept_after hsound horderly p later

end run

/-- A run in which a period is funded, closed, posted and, when all deadlines have passed, swept. -/
def sweptRun : List (Event PoolToken) :=
  [.request ⟨⟨⟨1⟩, .epoch, 1⟩, .deposit ⟨0⟩ 500⟩,
   .request ⟨⟨⟨1⟩, Timestamp.epoch.after (.ofSeconds 3600), 2⟩, .advancePeriod⟩,
   .request ⟨⟨⟨1⟩, Timestamp.epoch.after (.ofSeconds 3600), 3⟩, .postCommitment ⟨0⟩ 0⟩,
   .request ⟨⟨⟨1⟩, Timestamp.epoch.after (.ofSeconds 10371600), 4⟩, .sweepPeriod ⟨0⟩ ⟨2⟩⟩]

/-- The period goes through all stages without a claim, and whatever concerns it is refused in the
end. -/
theorem lifecycle_in_order_of_swept : ∃ l reached : Ledger PoolToken,
    Ledger.start {} ⟨1⟩ none { balances := Table.empty.insert ⟨1⟩ 1000 } .epoch = .ok l ∧
      l.after sweptRun = reached ∧ (reached.periodFund ⟨0⟩).isSwept = true ∧
      Orderly {} reached ∧
      (∀ (call : Call) (p : PeriodId) c, reached.commitment? p = none →
        (reached.step call).commitment? p = some c →
          ∃ root, call.request = .postCommitment p root ∧ c = .first {} p root call.ctx.now) ∧
      (∀ later p, Kept p reached (l.after (sweptRun ++ later))) ∧
      ∀ (call : Call) (p : PeriodId), (reached.periodFund p).isSwept = true →
        call.request.concerns p = true →
          ∃ e, reached.handle call.ctx call.request = (.error e, reached) := by
  obtain ⟨l, hstart, hswept⟩ : ∃ l : Ledger PoolToken,
      Ledger.start {} ⟨1⟩ none { balances := Table.empty.insert ⟨1⟩ 1000 } .epoch = .ok l ∧
        ((l.after sweptRun).periodFund ⟨0⟩).isSwept = true := ⟨_, rfl, by decide +kernel⟩
  exact ⟨l, _, hstart, rfl, hswept, lifecycle_in_order hstart sweptRun⟩

end Ledger

end Settlement
