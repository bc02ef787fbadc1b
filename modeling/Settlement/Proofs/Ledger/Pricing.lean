import Settlement.Proofs.Era.Chronicle
import Settlement.Proofs.Ledger.Posting
import Settlement.Token.Pool

namespace Settlement

namespace Era

variable {e e' : Era} {p : PeriodId} {s : PeriodSnapshot}

theorem Stepped.snapshot?_current {now : Timestamp} (h : Stepped e (.advance now) e') :
    e'.snapshot? e.current = some (e.closed now) := by
  cases h with
  | advanced => exact e.snapshots.get?_insert_self _ _

theorem Stepped.snapshot?_eq {call : EraCall} (h : Stepped e call e') (hp : p < e.current) :
    e'.snapshot? p = e.snapshot? p := by
  cases h with
  | advanced =>
    have hne : p ≠ e.current := fun heq => Nat.lt_irrefl _ (heq ▸ hp)
    exact Table.get?_insert_of_ne e.snapshots hne _
  | recorded => rfl
  | priced => rfl

theorem feesForPeriod_eq (h : e.snapshot? p = some s) :
    e.feesForPeriod p = s.feeSchedule.feeOf p >>= fun fee => totalFee fee s.operations := by
  rw [feesForPeriod, h]
  rfl

theorem periodFee_eq (h : e.snapshot? p = some s) : e.periodFee p = s.feeSchedule.feeOf p := by
  rw [periodFee, h]

theorem feesForPeriod_eq_batchFees {now : Timestamp} (hopen : e.snapshot? e.current = none)
    (hclosed : e'.snapshot? e.current = some (e.closed now)) :
    e'.feesForPeriod e.current = e.batchFees e.accumulator := by
  rw [feesForPeriod_eq hclosed, batchFees, periodFee, hopen]
  rfl

end Era

theorem Request.eq_of_eraCall? {request : Request} {now closing : Timestamp}
    (h : request.eraCall? now = some (.advance closing)) :
    request = .advancePeriod ∧ closing = now := by
  cases request with
  | advancePeriod =>
    cases h
    exact ⟨rfl, rfl⟩
  | _ => cases h

namespace Ledger

variable {τ : Type} {policy : ProtocolPolicy} {authority : Address} {guardian : Option Address}
  {token : τ} {now : Timestamp} {l : Ledger τ} {p : PeriodId}

theorem era_of_start (hstart : Ledger.start policy authority guardian token now = .ok l) :
    l.eraPolicy = l.era.policy ∧ l.era.current = ⟨0⟩ := by
  obtain ⟨-, governance, era, -, hera, rfl⟩ := eq_of_start hstart
  obtain ⟨-, rfl⟩ := Era.start_eq_ok hera
  exact ⟨rfl, rfl⟩

variable [PayoutToken τ]

/-- What every granted call of the periods keeps holds of the periods of a ledger after any run. -/
theorem era_after_of_stepped {P : Era → Prop}
    (hstep : ∀ {e call e'}, P e → Era.Stepped e call e' → P e') (h : P l.era)
    (events : List (Event τ)) : P (l.after events).era := by
  refine after_of_next (P := fun l => P l.era) (fun l event h => ?_) h events
  cases event with
  | token change => exact h
  | request call =>
    change P (l.step call).era
    cases eraMoved_step l call with
    | kept hsame => rwa [hsame]
    | applied _ happly => exact hstep h (Era.stepped happly)

/-- The periods of a ledger have their books in order, by what was granted to them. -/
theorem chronicle_after (hstart : Ledger.start policy authority guardian token now = .ok l)
    (events : List (Event τ)) :
    ∃ granted, Era.Chronicle policy.era now granted (l.after events).era := by
  obtain ⟨-, governance, era, -, hera, rfl⟩ := eq_of_start hstart
  have hvalid := (Era.start_eq_ok hera).1
  apply era_after_of_stepped (P := fun e => ∃ granted, Era.Chronicle policy.era now granted e)
  · rintro e call e' ⟨granted, h⟩ hstep
    exact ⟨_, h.step hvalid hstep⟩
  · exact ⟨[], .start hera⟩

theorem eraPolicy_after (hpolicy : l.eraPolicy = l.era.policy) (events : List (Event τ)) :
    (l.after events).eraPolicy = (l.after events).era.policy := by
  refine after_of_next (P := fun l => l.eraPolicy = l.era.policy) (fun l event h => ?_) hpolicy
    events
  cases event with
  | token change => exact h
  | request call => exact (eraMoved_step l call).eraPolicy_eq h

theorem snapshot?_after (hp : p < l.era.current) (events : List (Event τ)) :
    p < (l.after events).era.current ∧ (l.after events).era.snapshot? p = l.era.snapshot? p := by
  apply era_after_of_stepped (P := fun e => p < e.current ∧ e.snapshot? p = l.era.snapshot? p)
  · rintro e call e' ⟨hclosed, hsame⟩ hstep
    exact ⟨hstep.lt_current hclosed, (hstep.snapshot?_eq hclosed).trans hsame⟩
  · exact ⟨hp, rfl⟩

/-- The call closes a period, which was the current one until then. -/
structure Closes (p : PeriodId) (l : Ledger τ) (call : Call) : Prop where
  request : call.request = .advancePeriod
  current : l.era.current = p
  answer : l.handle call.ctx call.request =
    (.ok (.period (l.era.closed call.ctx.now)), l.step call)
  closed : p < (l.step call).era.current
  snapshot : (l.step call).era.snapshot? p = some (l.era.closed call.ctx.now)

/-- A request that moves on to the next period was granted, and answers with the snapshot. -/
private theorem handle_advancePeriod {ctx : CallContext}
    (h : l.era.current < (l.step ⟨ctx, .advancePeriod⟩).era.current) :
    l.handle ctx .advancePeriod =
      (.ok (.period (l.era.closed ctx.now)), l.step ⟨ctx, .advancePeriod⟩) := by
  have hhandled := handled l ctx .advancePeriod
  unfold step at h ⊢
  simp only at h ⊢
  generalize l.handle ctx .advancePeriod = outcome at h hhandled ⊢
  cases hhandled with
  | refused => exact absurd h (Nat.lt_irrefl _)
  | quiet hcontrolled =>
    cases hcontrolled with
    | advanced _ hera =>
      obtain ⟨rfl, -⟩ := Era.stepped_of_advance hera
      rfl
    | governed hchange => cases hchange

theorem closes_of_lt {call : Call} (hopen : ¬ p < l.era.current)
    (hclosed : p < (l.step call).era.current) : Closes p l call := by
  have hmoved := eraMoved_step l call
  obtain ⟨ctx, request⟩ := call
  cases hmoved with
  | kept hera =>
    rw [hera] at hclosed
    exact absurd hclosed hopen
  | @applied eraCall hcall happly =>
    have hcurrent := (Era.stepped happly).val_current
    rw [PeriodId.lt_def] at hopen hclosed
    cases eraCall with
    | record | setFeeSchedule =>
      change _ = l.era.current.number.val at hcurrent
      omega
    | advance now =>
      obtain ⟨rfl, rfl⟩ := Request.eq_of_eraCall? hcall
      change _ = l.era.current.number.val + 1 at hcurrent
      have hnumber : l.era.current.number.val = p.number.val := by omega
      obtain rfl : l.era.current = p := rank_inj hnumber
      have hsnapshot := (Era.stepped happly).snapshot?_current
      exact ⟨rfl, rfl, handle_advancePeriod hclosed, hclosed, hsnapshot⟩

/-- A period that is closed after a run was closed by one of its requests, by induction on the
run. -/
theorem exists_closes (hopen : ¬ p < l.era.current) {events : List (Event τ)}
    (hclosed : p < (l.after events).era.current) :
    ∃ before call rest, events = before ++ .request call :: rest ∧
      Closes p (l.after before) call := by
  -- the first event after which the period is closed is the one that closes it
  induction events generalizing l with
  | nil => exact absurd hclosed hopen
  | cons event events ih =>
    by_cases hnext : p < (l.next event).era.current
    · cases event with
      | token change => exact absurd hnext hopen
      | request call => exact ⟨[], call, events, rfl, closes_of_lt hopen hnext⟩
    · obtain ⟨before, call, rest, rfl, hcloses⟩ := ih hnext hclosed
      exact ⟨event :: before, call, rest, rfl, hcloses⟩

/-- Closed periods are priced for good. A period that is closed in some state of a run was closed by
one call of it; the fees of the period are those that its count had under the schedule of that
moment. They stay in all later states, as do the fee per operation and the snapshot. The terms that
the ledger gives out are at all times those that the periods go by. -/
theorem priced_for_good (hstart : Ledger.start policy authority guardian token now = .ok l)
    (events : List (Event τ)) :
    (l.after events).policy.era = (l.after events).era.policy ∧
      ∀ p, (l.after events).era.isClosed p = true →
        (∃ before call rest, events = before ++ .request call :: rest ∧
          Closes p (l.after before) call ∧
          (l.after events).era.snapshot? p = some ((l.after before).era.closed call.ctx.now) ∧
          (l.after events).era.feesForPeriod p =
            (l.after before).era.batchFees (l.after before).era.accumulator) ∧
        ∀ later, (l.after (events ++ later)).era.isClosed p = true ∧
          (l.after (events ++ later)).era.snapshot? p = (l.after events).era.snapshot? p ∧
          (l.after (events ++ later)).era.periodFee p = (l.after events).era.periodFee p ∧
          (l.after (events ++ later)).era.feesForPeriod p =
            (l.after events).era.feesForPeriod p := by
  obtain ⟨hpolicy, hzero⟩ := era_of_start hstart
  refine ⟨eraPolicy_after hpolicy events, fun p hp => ?_⟩
  have hclosed : p < (l.after events).era.current := of_decide_eq_true hp
  have hopen : ¬ p < l.era.current := by
    rw [hzero]
    exact Nat.not_lt_zero _
  obtain ⟨before, call, rest, rfl, hcloses⟩ := exists_closes hopen hclosed
  have hafter : l.after (before ++ .request call :: rest) =
      ((l.after before).step call).after rest := after_append ..
  have hsnapshot : (l.after (before ++ .request call :: rest)).era.snapshot? p =
      some ((l.after before).era.closed call.ctx.now) := by
    rw [hafter, (snapshot?_after hcloses.closed rest).2, hcloses.snapshot]
  obtain ⟨granted, hbooks⟩ := chronicle_after hstart before
  have hnone : (l.after before).era.snapshot? (l.after before).era.current = none :=
    Option.eq_none_iff_forall_ne_some.2 fun s hs =>
      Nat.lt_irrefl _ (hbooks.exists_snapshot?_iff.1 ⟨s, hs⟩)
  have hfees := Era.feesForPeriod_eq_batchFees hnone (hcloses.current ▸ hsnapshot)
  rw [hcloses.current] at hfees
  refine ⟨⟨before, call, rest, rfl, hcloses, hsnapshot, hfees⟩, fun later => ?_⟩
  rw [after_append]
  obtain ⟨hstays, hsame⟩ := snapshot?_after hclosed later
  have hkept := hsame.trans hsnapshot
  refine ⟨decide_eq_true hstays, hsame, ?_, ?_⟩
  · rw [Era.periodFee_eq hkept, Era.periodFee_eq hsnapshot]
  · rw [Era.feesForPeriod_eq hkept, Era.feesForPeriod_eq hsnapshot]

/-- A period in which operations are counted and which is closed before the fees change. -/
def pricedRun : List (Event PoolToken) :=
  [.request ⟨⟨⟨2⟩, .epoch, 1⟩, .recordOperations 40⟩,
   .request ⟨⟨⟨1⟩, Timestamp.epoch.after (.ofSeconds 3600), 2⟩, .advancePeriod⟩,
   .request ⟨⟨⟨1⟩, Timestamp.epoch.after (.ofSeconds 3600), 3⟩,
    .setFeeSchedule { curve := .growth }⟩]

/-- Forty operations keep the fees of their period although fees change right after it is closed. -/
theorem priced_for_good_of_growth : ∃ l reached : Ledger PoolToken,
    Ledger.start {} ⟨1⟩ none .empty .epoch = .ok l ∧ l.after pricedRun = reached ∧
      reached.era.isClosed ⟨0⟩ = true ∧ reached.era.policy.feeSchedule.curve = .growth ∧
      reached.policy.era = reached.era.policy ∧
      (∃ before call rest, pricedRun = before ++ .request call :: rest ∧
        Closes ⟨0⟩ (l.after before) call ∧
        reached.era.snapshot? ⟨0⟩ = some ((l.after before).era.closed call.ctx.now) ∧
        reached.era.feesForPeriod ⟨0⟩ =
          (l.after before).era.batchFees (l.after before).era.accumulator) ∧
      ∀ later, (l.after (pricedRun ++ later)).era.feesForPeriod ⟨0⟩ =
        reached.era.feesForPeriod ⟨0⟩ := by
  obtain ⟨l, hstart, hclosed, hcurve⟩ : ∃ l : Ledger PoolToken,
      Ledger.start {} ⟨1⟩ none .empty .epoch = .ok l ∧
        (l.after pricedRun).era.isClosed ⟨0⟩ = true ∧
        (l.after pricedRun).era.policy.feeSchedule.curve = .growth :=
    ⟨_, rfl, by decide +kernel, by decide +kernel⟩
  obtain ⟨hpolicy, hpriced⟩ := priced_for_good hstart pricedRun
  obtain ⟨hfees, hlater⟩ := hpriced ⟨0⟩ hclosed
  exact ⟨l, _, hstart, rfl, hclosed, hcurve, hpolicy, hfees, fun later => (hlater later).2.2.2⟩

end Ledger

end Settlement
