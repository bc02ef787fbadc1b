import Settlement.Proofs.Ledger.Event
import Settlement.Proofs.Ledger.Remainder
import Settlement.Proofs.Ledger.Settle
import Settlement.Proofs.Token.Pool

namespace Settlement

/-- The receipts that an answer consists of. A batch has one for each of its claims. -/
def Answer.receipts : Answer → List ClaimReceipt
  | .claim receipt => [receipt]
  | .claims batch => batch.claims
  | _ => []

theorem Answer.receipts_of_isPayout {answer : Answer} (h : answer.isPayout = false) :
    answer.receipts = [] := by
  cases answer with
  | claim receipt => cases h
  | claims batch => cases h
  | _ => rfl

/-- The receipt of a single claim is balanced, those of a batch are when the remainders fit into its
last claim. -/
def Answer.Proper : Answer → Prop
  | .claim receipt => receipt.Balanced
  | .claims batch => (∀ receipt ∈ batch.claims, receipt.Balanced) ↔ batch.RemainderFits
  | _ => True

/-- What an answer says about the claims that were paid, and the losses that they bear. -/
structure Answer.Tells (answer : Answer) (reserved : List Ledger.Reservation)
    (losses : List Amount) : Prop where
  proper : answer.Proper
  amounts : answer.receipts.map (fun r => (r.period, r.amount)) = reserved
  losses : answer.receipts.map (fun r => (r.period, r.precisionLoss)) =
    (reserved.map Prod.fst).zip losses

theorem Answer.proper_of_isPayout {answer : Answer} (h : answer.isPayout = false) :
    answer.Proper := by
  cases answer with
  | claim receipt => cases h
  | claims batch => cases h
  | _ => trivial

namespace Ledger

section answers

variable {τ : Type} [PayoutToken τ]

/-- What the requests of a run answer that are not refused, in order. -/
def answers (l : Ledger τ) : List (Event τ) → List Answer
  | [] => []
  | .request call :: rest =>
    (l.handle call.ctx call.request).1.toOption.toList ++ answers (l.step call) rest
  | .token change :: rest => answers { l with token := change l.token } rest

end answers

variable {l : Ledger PoolToken} {call : Call}

theorem sent_of_transfer {t sent : PoolToken} {who : Address} {amount : Amount}
    {receipt : TransferReceipt} (h : PayoutToken.transfer t who amount = (.ok receipt, sent)) :
    receipt.sent = amount ∧ receipt.received ≤ receipt.sent := by
  obtain ⟨rfl, -, -⟩ := PoolToken.transfer_eq_ok h
  exact ⟨rfl, Word.le_def.2 (Nat.sub_le _ _)⟩

/-- How a payout ends with the token that burns a fee. Since this token takes back every transfer
that it was just asked for, a payout that is called off leaves all balances as they were. -/
inductive PaidByPool (l : Ledger PoolToken) (who : Address) (reserved : List Reservation)
    (total : Amount) : Outcome PoolToken (TransferReceipt × List Amount) → Prop
  | calledOff {e : Error} {token : PoolToken}
      (hbalances : ∀ other, token.balanceOf other = l.token.balanceOf other) :
      PaidByPool l who reserved total (.error e, { l with token })
  | accepted {receipt : TransferReceipt} {losses : List Amount} {token : PoolToken}
      (hsent : PayoutToken.transfer l.token who total = (.ok receipt, token))
      (hlosses : l.assess reserved total receipt = .ok losses) :
      PaidByPool l who reserved total (.ok (receipt, losses), l.settle who reserved losses token)

theorem paidByPool (l : Ledger PoolToken) (who : Address) (reserved : List Reservation)
    (total : Amount) : PaidByPool l who reserved total (l.payOut who reserved total) := by
  have hpaid := paidOut l who reserved total
  generalize l.payOut who reserved total = outcome at hpaid ⊢
  cases hpaid with
  | unsent hsent =>
    obtain ⟨-, rfl⟩ := unlessRefused_eq_error_iff.1 hsent
    exact .calledOff fun _ => rfl
  | takenBack hsent _ hback =>
    exact .calledOff fun _ => PoolToken.balanceOf_of_revert hsent hback
  | kept hsent _ hback =>
    rw [PoolToken.revert_of_transfer hsent] at hback
    cases hback
  | accepted hsent hlosses => exact .accepted hsent hlosses

/-- The receipt of a single claim tells the amount and the whole loss of the transfer. -/
private theorem tells_claimReceipt (who : Address) {entry : ClaimEntry}
    {receipt : TransferReceipt} {losses : List Amount} (hsent : receipt.sent = entry.amount)
    (hreceived : receipt.received ≤ receipt.sent)
    (hlosses : apportion receipt.shortfall [entry.amount] entry.amount = .ok losses) :
    (Answer.claim (claimReceipt who entry (receipt, losses))).Tells [entry.reservation] losses := by
  cases hlosses
  refine ⟨?_, rfl, rfl⟩
  change receipt.received.val + (receipt.sent.val - receipt.received.val) = entry.amount.val
  rw [Word.le_def] at hreceived
  rw [← hsent]
  omega

private theorem tells_batchReceipt (who : Address) {entries : List ClaimEntry} {total : Amount}
    {receipt : TransferReceipt} {losses : List Amount}
    (htotal : IsTotal (entries.map ClaimEntry.reservation) total) (hsent : receipt.sent = total)
    (hlosses : apportion receipt.shortfall
      ((entries.map ClaimEntry.reservation).map Prod.snd) total = .ok losses) :
    (Answer.claims (batchReceipt who entries (receipt, losses))).Tells
      (entries.map ClaimEntry.reservation) losses := by
  rw [List.map_map] at hlosses
  have hlength := length_of_apportion_entries htotal hlosses
  rw [List.length_map] at hlength
  refine ⟨balanced_iff_remainderFits who hlosses htotal hsent, ?_, ?_⟩
  · exact map_claims_batchReceipt who receipt hlength fun _ _ => rfl
  · change ((entries.zip losses).map _).map _ = _
    rw [List.map_map, List.map_map, List.zip_map_left]
    rfl

/-- What a call answers about claims, and what it changes about them. -/
inductive Receipts (l : Ledger PoolToken) (call : Call) : Prop
  /-- No claim is answered, and no period has claimed or lost anything. -/
  | none (hanswer : ∀ answer, (l.handle call.ctx call.request).1 = .ok answer →
        answer.isPayout = false)
      (hclaimed : ∀ p, ((l.step call).periodFund p).claimed = (l.periodFund p).claimed)
      (hlost : ∀ p, ((l.step call).periodFund p).precisionLoss = (l.periodFund p).precisionLoss)
  /-- The periods have claimed and lost what the receipts say. -/
  | paid (answer : Answer) (reserved : List Reservation) (losses : List Amount) (token : PoolToken)
      (hanswer : (l.handle call.ctx call.request).1 = .ok answer)
      (htells : answer.Tells reserved losses)
      (hpayable : l.Payable call.ctx.caller reserved)
      (hlength : losses.length = reserved.length)
      (hroom : l.funds.HasRoom ((reserved.map Prod.fst).zip losses))
      (hstep : l.step call = l.settle call.ctx.caller reserved losses token)

private theorem receipts_none {outcome : Outcome PoolToken Answer}
    (houtcome : l.handle call.ctx call.request = outcome)
    (hanswer : ∀ answer, outcome.1 = .ok answer → answer.isPayout = false)
    (hclaimed : ∀ p, (outcome.2.periodFund p).claimed = (l.periodFund p).claimed)
    (hlost : ∀ p, (outcome.2.periodFund p).precisionLoss = (l.periodFund p).precisionLoss) :
    l.Receipts call := by
  have hstep : l.step call = outcome.2 := congrArg Prod.snd houtcome
  refine .none (fun answer h => hanswer answer (houtcome ▸ h)) (fun p => ?_) (fun p => ?_)
  · rw [hstep, hclaimed]
  · rw [hstep, hlost]

/-- A payout that is called off answers nothing; one that is accepted is booked as its answer
says. -/
private theorem receipts_of_payOut {reserved : List Reservation} {total : Amount}
    {f : TransferReceipt × List Amount → Answer}
    (hhandle : l.handle call.ctx call.request =
      Outcome.map f (l.payOut call.ctx.caller reserved total))
    (hpayable : l.Payable call.ctx.caller reserved) (htotal : IsTotal reserved total)
    (htells : ∀ receipt losses, receipt.sent = total → receipt.received ≤ receipt.sent →
      apportion receipt.shortfall (reserved.map Prod.snd) total = .ok losses →
      (f (receipt, losses)).Tells reserved losses) : l.Receipts call := by
  have hpaid := paidByPool l call.ctx.caller reserved total
  generalize l.payOut call.ctx.caller reserved total = outcome at hhandle hpaid
  cases hpaid with
  | calledOff => exact receipts_none hhandle (fun _ h => by cases h) (fun _ => rfl) fun _ => rfl
  | @accepted receipt losses token hsent hassess =>
    obtain ⟨hexact, hreceived⟩ := sent_of_transfer hsent
    obtain ⟨hlength, -, hlosses, hroom⟩ := assess_eq_ok htotal hassess
    exact .paid (f (receipt, losses)) reserved losses token (congrArg Prod.fst hhandle)
      (htells receipt losses hexact hreceived hlosses) hpayable hlength hroom
      (congrArg Prod.snd hhandle)

theorem receipts (l : Ledger PoolToken) (call : Call) : l.Receipts call := by
  obtain ⟨ctx, request⟩ := call
  cases hadmitted : l.admitted? ctx request with
  | none =>
    have hunpaid := unpaid_of_admitted?_eq_none hadmitted
    exact .none hunpaid.answer hunpaid.claimed hunpaid.lost
  | some total =>
    cases request with
    | revealClaim entry =>
      obtain ⟨_, hpassed, -⟩ := Option.map_eq_some_iff.1 hadmitted
      rw [Result.toOption_eq_some_iff] at hpassed
      apply receipts_of_payOut (handle_revealClaim hpassed) (payable_of_admitOne hpassed)
        (isTotal_of_admitOne hpassed)
      intro receipt losses hsent hreceived hlosses
      exact tells_claimReceipt _ hsent hreceived hlosses
    | revealClaimBatch periods amounts nonces proofs =>
      obtain ⟨entries, hentries, hpassed⟩ := Option.bind_eq_some_iff.1 hadmitted
      rw [Result.toOption_eq_some_iff] at hentries hpassed
      have htotal := isTotal_of_admitAll hpassed
      apply receipts_of_payOut (handle_revealClaimBatch hentries hpassed)
        (payable_of_admitAll hpassed) htotal
      intro receipt losses hsent _ hlosses
      exact tells_batchReceipt _ htotal hsent hlosses
    | _ => cases hadmitted

/-- What the periods have claimed and lost is what the receipts say. The two sums of a period are
then compared by comparing each receipt with itself. -/
structure Tally (l : Ledger PoolToken) (receipts : List ClaimReceipt) : Prop where
  claimed : ∀ p, (l.periodFund p).claimed.val =
    sumFor (receipts.map fun r => (r.period, r.amount)) p
  lost : ∀ p, (l.periodFund p).precisionLoss.val =
    sumFor (receipts.map fun r => (r.period, r.precisionLoss)) p

/-- The receipts that a request is answered with, if it is not refused. -/
def receiptsOf (l : Ledger PoolToken) (call : Call) : List ClaimReceipt :=
  (l.handle call.ctx call.request).1.toOption.toList.flatMap Answer.receipts

theorem receiptsOf_of_ok {answer : Answer}
    (h : (l.handle call.ctx call.request).1 = .ok answer) :
    l.receiptsOf call = answer.receipts := by
  unfold receiptsOf
  rw [h]
  exact List.flatMap_singleton ..

theorem receiptsOf_of_no_payout (h : ∀ answer, (l.handle call.ctx call.request).1 = .ok answer →
    answer.isPayout = false) : l.receiptsOf call = [] := by
  cases hanswer : (l.handle call.ctx call.request).1 with
  | error e =>
    unfold receiptsOf
    rw [hanswer]
    rfl
  | ok answer =>
    rw [receiptsOf_of_ok hanswer]
    exact Answer.receipts_of_isPayout (h answer hanswer)

theorem Tally.step {before : List ClaimReceipt} (h : Tally l before) (call : Call) :
    Tally (l.step call) (before ++ l.receiptsOf call) := by
  cases receipts l call with
  | none hanswer hclaimed hlost =>
    rw [receiptsOf_of_no_payout hanswer, List.append_nil]
    refine ⟨fun p => ?_, fun p => ?_⟩
    · rw [hclaimed, h.claimed]
    · rw [hlost, h.lost]
  | paid answer reserved losses token hanswer htells hpayable hlength hroom hstep =>
    rw [receiptsOf_of_ok hanswer, hstep]
    refine ⟨fun p => ?_, fun p => ?_⟩
    · have hclaimed := val_claimed_settle hpayable hlength token p
      have hbefore := h.claimed p
      unfold periodFund at hbefore ⊢
      rw [hclaimed, hbefore, List.map_append, sumFor_append, htells.amounts]
    · have hlost := val_precisionLoss_settle_of_room hpayable hlength hroom token p
      have hbefore := h.lost p
      unfold periodFund at hbefore ⊢
      rw [hlost, hbefore, List.map_append, sumFor_append, htells.losses]

theorem answers_append (l : Ledger PoolToken) (first second : List (Event PoolToken)) :
    l.answers (first ++ second) = l.answers first ++ (l.after first).answers second := by
  induction first generalizing l with
  | nil => rfl
  | cons event rest ih =>
    cases event with
    | request call =>
      rw [List.cons_append, answers, answers, ih, List.append_assoc]
      rfl
    | token change => exact ih _

theorem Tally.after {before : List ClaimReceipt} (h : Tally l before)
    (events : List (Event PoolToken)) :
    Tally (l.after events) (before ++ (l.answers events).flatMap Answer.receipts) := by
  induction events generalizing l before with
  | nil =>
    rw [answers, List.flatMap_nil, List.append_nil]
    exact h
  | cons event rest ih =>
    cases event with
    | request call =>
      rw [answers, List.flatMap_append, ← List.append_assoc]
      exact ih (h.step call)
    | token change => exact ih ⟨h.claimed, h.lost⟩

theorem Tally.precisionLoss_le {all : List ClaimReceipt} (h : Tally l all)
    (hbalanced : ∀ receipt ∈ all, receipt.Balanced) (p : PeriodId) :
    (l.periodFund p).precisionLoss.val ≤ (l.periodFund p).claimed.val := by
  rw [h.claimed, h.lost]
  clear h
  induction all with
  | nil => exact Nat.le_refl _
  | cons receipt rest ih =>
    have hfirst := hbalanced receipt (List.mem_cons_self ..)
    have hrest := ih fun receipt hmem => hbalanced receipt (List.mem_cons_of_mem _ hmem)
    unfold ClaimReceipt.Balanced at hfirst
    rw [List.map_cons, List.map_cons, sumFor_cons, sumFor_cons]
    split
    · simp only
      omega
    · omega

theorem proper_of_mem_answers {events : List (Event PoolToken)} {answer : Answer}
    (hmem : answer ∈ l.answers events) : answer.Proper := by
  induction events generalizing l with
  | nil => cases hmem
  | cons event rest ih =>
    cases event with
    | token change => exact ih hmem
    | request call =>
      rw [answers, List.mem_append] at hmem
      rcases hmem with hmem | hmem
      · rw [Option.mem_toList, Result.toOption_eq_some_iff] at hmem
        cases receipts l call with
        | none hanswer => exact Answer.proper_of_isPayout (hanswer answer hmem)
        | paid answer' _ _ _ hanswer' htells =>
          rw [hmem] at hanswer'
          cases hanswer'
          exact htells.proper
      · exact ih hmem

theorem tally_start {policy : ProtocolPolicy} {authority : Address} {guardian : Option Address}
    {token : PoolToken} {now : Timestamp}
    (hstart : Ledger.start policy authority guardian token now = .ok l) : Tally l [] := by
  obtain ⟨-, -, hfunds, -, -⟩ := start_eq_ok hstart
  refine ⟨fun p => ?_, fun p => ?_⟩
  · unfold periodFund
    rw [hfunds]
    rfl
  · unfold periodFund
    rw [hfunds]
    rfl

/-- Two large claims, and one of a single unit that takes the remainders of both. Each is the only
claim of its period, so its leaf is the root there. -/
def unevenEntries : List ClaimEntry := [⟨⟨0⟩, 100, 0, []⟩, ⟨⟨1⟩, 100, 0, []⟩, ⟨⟨2⟩, 1, 0, []⟩]

/-- The state in which the claims begin, with a limit that lets a claim of one unit pass. -/
def unevenStart : Ledger PoolToken where
  era := ⟨{}, ⟨0⟩, 0, .epoch, .empty, 0⟩
  claimPolicy := { minClaimAmount := 1 }
  domain := {}
  governance := ⟨⟨1⟩, none, none, false, 0, none, .epoch, none, {}⟩
  token := { PoolToken.empty with balances := Table.empty.insert ⟨1⟩ 1000 }

/-- A time of the run, in seconds from its start. -/
def unevenTime (seconds : Count) : Timestamp := Timestamp.epoch.after (.ofSeconds seconds)

/-- Each claim is funded, its period closed, its root posted and its commitment made. Then the token
is given a fee of one percent. -/
def unevenEvents : List (Event PoolToken) :=
  unevenEntries.map (fun e => .request ⟨⟨⟨1⟩, unevenTime 0, 1⟩, .deposit e.period e.amount⟩) ++
  [3600, 7200, 10800].map (fun t => .request ⟨⟨⟨1⟩, unevenTime t, 1⟩, .advancePeriod⟩) ++
  unevenEntries.map (fun e =>
    .request ⟨⟨⟨1⟩, unevenTime 10800, 1⟩, .postCommitment e.period (e.claim {} ⟨2⟩).leaf⟩) ++
  unevenEntries.map (fun e => .request
    ⟨⟨⟨2⟩, unevenTime 10800, 1⟩, .commitClaim e.period ((e.claim {} ⟨2⟩).commitment e.nonce)⟩) ++
  [.token (·.setFee 100)]

/-- The claims are revealed together, a day after the roots were posted. -/
def unevenReveal : Call where
  ctx := ⟨⟨2⟩, unevenTime 97200, 2⟩
  request := .revealClaimBatch (unevenEntries.map ClaimEntry.period)
    (unevenEntries.map ClaimEntry.amount) (unevenEntries.map ClaimEntry.nonce)
    (unevenEntries.map ClaimEntry.proof)

/-- The whole run, of which the last event is the reveal. -/
def unevenRun : List (Event PoolToken) := unevenEvents ++ [.request unevenReveal]

/-- The roots and commitments of the run are compared as terms, so that no digest is computed. -/
theorem admitAll_uneven :
    (unevenStart.after unevenEvents).admitAll unevenReveal.ctx unevenEntries = .ok 201 := by
  have hcommit : ∀ e ∈ unevenEntries, (unevenStart.after unevenEvents).commits.get? ⟨2⟩ e.period =
      some ⟨(e.claim {} ⟨2⟩).commitment e.nonce, 1, unevenTime 10800⟩ := by
    rintro e (_ | ⟨_, _ | ⟨_, _ | ⟨_, _ | _⟩⟩⟩) <;> rfl
  have hposted : ∀ e ∈ unevenEntries, (unevenStart.after unevenEvents).commitments.claimable
      unevenStart.claimPolicy e.period unevenReveal.ctx.now =
        .ok (.first {} e.period (e.claim {} ⟨2⟩).leaf (unevenTime 10800)) := by
    rintro e (_ | ⟨_, _ | ⟨_, _ | ⟨_, _ | _⟩⟩⟩) <;> rfl
  apply admitAll_of_sole (ClaimEntry.claim · {} ⟨2⟩)
  · intro e he
    refine ⟨rfl, ⟨1, _, by decide, hcommit e he⟩, ⟨_, hposted e he, rfl⟩, ?_⟩
    revert e
    decide +kernel
  · decide +kernel
  · exact ⟨by decide, by decide, by decide, by decide⟩

private theorem handle_uneven :
    (unevenStart.after unevenEvents).handle unevenReveal.ctx unevenReveal.request =
      Outcome.map (Answer.claims ∘ batchReceipt ⟨2⟩ unevenEntries)
        ((unevenStart.after unevenEvents).payOut ⟨2⟩
          (unevenEntries.map ClaimEntry.reservation) 201) :=
  handle_revealClaimBatch rfl admitAll_uneven

theorem answer_uneven :
    ((unevenStart.after unevenEvents).handle unevenReveal.ctx unevenReveal.request).1 =
      .ok (.claims (batchReceipt ⟨2⟩ unevenEntries (⟨⟨2⟩, 201, 199⟩, [0, 0, 2]))) := by
  have hpaid : ((unevenStart.after unevenEvents).payOut ⟨2⟩
      (unevenEntries.map ClaimEntry.reservation) 201).1 = .ok (⟨⟨2⟩, 201, 199⟩, [0, 0, 2]) :=
    Result.toOption_eq_some_iff.1 (by decide +kernel)
  rw [handle_uneven, Outcome.fst_map, hpaid]
  rfl

/-- In a run with the token that burns a fee, however the fee and the pause change, no period ever
has lost more than was claimed of it and every receipt is balanced, exactly if the remainders of
every batch that was paid fit into its last claim. -/
theorem losses_within_claims_iff {policy : ProtocolPolicy} {authority : Address}
    {guardian : Option Address} {token : PoolToken} {now : Timestamp}
    (hstart : Ledger.start policy authority guardian token now = .ok l)
    (events : List (Event PoolToken)) :
    ((∀ earlier, earlier <+: events → ∀ p, ((l.after earlier).periodFund p).precisionLoss.val ≤
          ((l.after earlier).periodFund p).claimed.val) ∧
        ∀ answer ∈ l.answers events, ∀ receipt ∈ answer.receipts, receipt.Balanced) ↔
      ∀ batch, Answer.claims batch ∈ l.answers events → batch.RemainderFits := by
  constructor
  · rintro ⟨-, hbalanced⟩ batch hmem
    exact (proper_of_mem_answers hmem).1 (hbalanced _ hmem)
  · intro hfits
    have hbalanced : ∀ answer ∈ l.answers events,
        ∀ receipt ∈ answer.receipts, receipt.Balanced := by
      intro answer hmem
      have hproper := proper_of_mem_answers hmem
      cases answer with
      | claim receipt => exact List.forall_mem_singleton.2 hproper
      | claims batch => exact hproper.2 (hfits batch hmem)
      | _ => exact fun _ h => by cases h
    refine ⟨?_, hbalanced⟩
    rintro earlier ⟨later, rfl⟩ p
    apply ((tally_start hstart).after earlier).precisionLoss_le
    rw [List.nil_append, List.forall_mem_flatMap]
    intro answer hmem
    rw [answers_append] at hbalanced
    exact hbalanced answer (List.mem_append_left _ hmem)

/-- The loss of two does not fit into the last claim of the run, so neither side holds of it. -/
theorem losses_within_claims_iff_of_uneven :
    Ledger.start { claims := { minClaimAmount := 1 } } ⟨1⟩ none unevenStart.token .epoch =
        .ok unevenStart ∧
      (((∀ earlier, earlier <+: unevenRun → ∀ p,
            ((unevenStart.after earlier).periodFund p).precisionLoss.val ≤
              ((unevenStart.after earlier).periodFund p).claimed.val) ∧
          ∀ answer ∈ unevenStart.answers unevenRun,
            ∀ receipt ∈ answer.receipts, receipt.Balanced) ↔
        ∀ batch, Answer.claims batch ∈ unevenStart.answers unevenRun →
          batch.RemainderFits) := by
  have hstart : Ledger.start { claims := { minClaimAmount := 1 } } ⟨1⟩ none unevenStart.token
      .epoch = .ok unevenStart := rfl
  exact ⟨hstart, losses_within_claims_iff hstart _⟩

/-- A batch that is accepted, although its remainders do not fit: its last claim is for one unit and
loses two. The loss of that period is then larger than what was claimed of it. -/
theorem claimed_lt_precisionLoss_of_uneven :
    Ledger.start { claims := { minClaimAmount := 1 } } ⟨1⟩ none unevenStart.token .epoch =
        .ok unevenStart ∧
      ((unevenStart.after unevenRun).periodFund ⟨2⟩).claimed = 1 ∧
      ((unevenStart.after unevenRun).periodFund ⟨2⟩).precisionLoss = 2 ∧
      ∃ answer ∈ unevenStart.answers unevenRun, ∃ receipt ∈ answer.receipts,
        ¬ receipt.Balanced := by
  have hafter : unevenStart.after unevenRun =
      ((unevenStart.after unevenEvents).payOut ⟨2⟩
        (unevenEntries.map ClaimEntry.reservation) 201).2 := by
    rw [unevenRun, after_append_request, step, handle_uneven, Outcome.snd_map]
  have hmem : .claims (batchReceipt ⟨2⟩ unevenEntries (⟨⟨2⟩, 201, 199⟩, [0, 0, 2])) ∈
      unevenStart.answers unevenRun := by
    rw [unevenRun, answers_append, answers, answer_uneven]
    exact List.mem_append_right _ (List.mem_singleton.2 rfl)
  refine ⟨rfl, ?_, ?_, _, hmem, ⟨⟨2⟩, ⟨2⟩, 1, 0, 2⟩, ?_, ?_⟩
  · rw [hafter]
    decide +kernel
  · rw [hafter]
    decide +kernel
  · exact List.mem_of_getLast? rfl
  · decide

end Ledger

end Settlement
