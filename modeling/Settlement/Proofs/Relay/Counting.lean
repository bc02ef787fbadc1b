import Settlement.Batch.Scripted
import Settlement.Proofs.Batch.Alignment
import Settlement.Proofs.Ledger.Posting
import Settlement.Proofs.Relay.Run
import Settlement.Token.Pool

namespace Settlement

/-- What happens to a relay and to the ledger that it counts in. -/
inductive SharedEvent (τ : Type)
  | relay (call : RelayCall)
  | ledger (event : Event τ)

/-- The event counts operations past the relay, so that the ledger would have more than the relay
knows of. -/
def SharedEvent.counts {τ : Type} : SharedEvent τ → Bool
  | .ledger (.request ⟨_, .recordOperations _⟩) => true
  | _ => false

namespace Turn

/-- The operations that the report of a turn says were counted. -/
def counted (turn : Turn) : Nat :=
  match turn.outcome with
  | .ok report => report.eraRecorded.val
  | .error _ => 0

/-- The positions in the batch of a turn with a weak operation that was settled, if there is a
report on the batch. -/
def settledWeak (policy : BatchPolicy) (turn : Turn) : Nat :=
  match turn.outcome with
  | .ok report => report.settledWeak policy turn.batch
  | .error _ => 0

/-- A report has a flag for each position, and counts those with a weak operation that was
settled. -/
def Counts (policy : BatchPolicy) (turn : Turn) : Prop :=
  ∀ report, turn.outcome = .ok report → report.results.length = turn.batch.size ∧
    report.eraRecorded.val = report.settledWeak policy turn.batch

theorem Counts.counted_eq {policy : BatchPolicy} {turn : Turn} (h : turn.Counts policy) :
    turn.counted = turn.settledWeak policy := by
  unfold counted settledWeak
  cases houtcome : turn.outcome with
  | error e => rfl
  | ok report => exact (h report houtcome).2

theorem settledWeak_eq_zero {policy : BatchPolicy} (hoff : policy.eraPathEnabled = false)
    (turn : Turn) : turn.settledWeak policy = 0 := by
  unfold settledWeak
  cases turn.outcome with
  | error e => rfl
  | ok report =>
    refine List.countP_eq_zero.2 fun entry _ => ?_
    rw [BatchPolicy.isWeak, hoff]
    exact Bool.false_ne_true

end Turn

namespace Ledger

variable {τ : Type} {l l' : Ledger τ}

theorem totalOperations_of_record {count : Count} (h : EraRecorder.record l count = .ok l') :
    l'.era.totalOperations.val = l.era.totalOperations.val + count.val := by
  obtain ⟨era, hera, rfl⟩ := Result.map_eq_ok_iff.1 h
  have happly : l.era.apply (.record count) = .ok era := hera
  exact (Era.stepped happly).val_totalOperations

theorem totalOperations_of_recordWeak {count : Nat} (h : recordWeak l count = .ok l') :
    l'.era.totalOperations.val = l.era.totalOperations.val + (Word.clamp count : Count).val := by
  unfold recordWeak at h
  split at h
  · next hzero =>
    cases h
    rw [hzero]
    rfl
  · exact totalOperations_of_record h

theorem totalOperations_next [PayoutToken τ] {event : Event τ}
    (h : (SharedEvent.ledger event).counts = false) :
    (l.next event).era.totalOperations = l.era.totalOperations := by
  cases event with
  | token change => rfl
  | request call =>
    obtain ⟨ctx, request⟩ := call
    change (l.step ⟨ctx, request⟩).era.totalOperations = _
    cases eraMoved_step l ⟨ctx, request⟩ with
    | kept hera => rw [hera]
    | applied hcall happly =>
      apply Word.ext
      rw [(Era.stepped happly).val_totalOperations]
      cases request with
      | recordOperations count => cases h
      | advancePeriod | setFeeSchedule _ =>
        cases hcall
        rfl
      | _ => cases hcall

end Ledger

namespace Relay

variable {σ τ : Type}

/-- A turn that fails leaves the whole ledger and the figure of the relay as they are. -/
theorem Processed.counts_of_error {ε : Type} [SettlementClient σ] [EraRecorder ε]
    {r next : Relay σ ε} {now : Timestamp} {turn? : Option Turn} {e : Error}
    (h : Processed r now turn? (.error e) next) :
    next.era = r.era ∧ next.metrics.totalEraOperations = r.metrics.totalEraOperations := by
  cases h with
  | failed _ hfailed => exact ⟨era_eq_of_error hfailed, rfl⟩

/-- The two counts of weak operations agree with each other and with the reports, and these with the
batches. The ledger keeps one count, the relay keeps the other among its figures, and the reports
tell it batch by batch. -/
structure Tally (policy : RelayPolicy) (r : Relay σ (Ledger τ)) (turns : List Turn) : Prop where
  bounded : policy.Bounded
  unchanged : r.policy = policy
  total : r.era.era.totalOperations.val = (turns.map Turn.counted).sum
  metrics : r.metrics.totalEraOperations = r.era.era.totalOperations
  counts : ∀ turn ∈ turns, turn.Counts policy.batching

namespace Tally

variable {policy : RelayPolicy} {r : Relay σ (Ledger τ)} {turns : List Turn}

theorem start {protocol : ProtocolPolicy} {authority : Address} {guardian : Option Address}
    {token : τ} {now : Timestamp} {ledger : Ledger τ} {authorizer : Authorizer} {client : σ}
    (hledger : Ledger.start protocol authority guardian token now = .ok ledger)
    (hstart : Relay.start policy authorizer client ledger = .ok r) : Tally policy r [] := by
  obtain ⟨-, governance, era, -, hera, rfl⟩ := Ledger.eq_of_start hledger
  obtain ⟨-, rfl⟩ := Era.start_eq_ok hera
  obtain ⟨_, hvalid, hr⟩ := Result.bind_eq_ok_iff.1 hstart
  cases hr
  have hbounded := RelayPolicy.bounded_of_validate hvalid
  exact ⟨hbounded, rfl, rfl, rfl, fun _ h => (List.not_mem_nil h).elim⟩

theorem total_eq_settledWeak (h : Tally policy r turns) :
    r.era.era.totalOperations.val = (turns.map (Turn.settledWeak policy.batching)).sum := by
  rw [h.total]
  exact congrArg List.sum (List.map_congr_left fun turn hmem => (h.counts turn hmem).counted_eq)

variable [SettlementClient σ]

theorem turn {now : Timestamp} {turn : Turn} {answer : Result (Option SettlementReport)}
    {next : Relay σ (Ledger τ)} (h : Tally policy r turns)
    (hturn : Processed r now (some turn) answer next) : Tally policy next (turns ++ [turn]) := by
  have hpolicy := hturn.policy_eq.trans h.unchanged
  cases hturn with
  | @failed e client era hready hfailed =>
    obtain rfl : era = r.era := era_eq_of_error hfailed
    refine ⟨h.bounded, hpolicy, ?_, h.metrics, ?_⟩
    · rw [List.map_append, List.sum_append]
      exact h.total
    · rw [List.forall_mem_append]
      exact ⟨h.counts, List.forall_mem_singleton.2 fun report hreport => by cases hreport⟩
  | @settled report client era hready hsettled =>
    obtain ⟨strong, weak, -, -, hreported⟩ :=
      settleCalls_eq_append r.policy.batching (r.nextSealed now) r.client r.era
    obtain ⟨strongFlags, weakFlags, hflags⟩ := hreported report client era hsettled
    have htotal := Ledger.totalOperations_of_recordWeak hflags.recorded
    rw [← hflags.eraRecorded] at htotal
    refine ⟨h.bounded, hpolicy, ?_, ?_, ?_⟩
    · rw [List.map_append, List.sum_append, ← h.total]
      exact htotal
    · -- the total of the ledger has room for the sum, so the figure of the relay has too
      have hroom := era.era.totalOperations.isLt
      apply Word.ext
      change (r.metrics.totalEraOperations.satAdd report.eraRecorded).val =
        era.era.totalOperations.val
      rw [h.metrics, Word.val_satAdd_of_lt (by omega), htotal]
    · rw [List.forall_mem_append]
      refine ⟨h.counts, List.forall_mem_singleton.2 fun report' hreport => ?_⟩
      cases hreport
      rw [← h.unchanged]
      exact ⟨hflags.results.length, hflags.val_eraRecorded⟩

theorem kept (policy : RelayPolicy) :
    Kept (fun (r : Relay σ (Ledger τ)) _ turns => Tally policy r turns) where
  bounded h := h.unchanged ▸ h.bounded
  submit h _ := ⟨h.bounded, h.unchanged, h.total, h.metrics, h.counts⟩
  turn := turn

end Tally

section run

variable [SettlementClient σ] [PayoutToken τ]

/-- The relay after an event, with the ledger that it counts in. -/
def nextShared (r : Relay σ (Ledger τ)) : SharedEvent τ → Relay σ (Ledger τ)
  | .relay call => r.next call
  | .ledger event => { r with era := r.era.next event }

/-- The relay after a sequence of events, some of which come to the ledger from elsewhere. -/
def afterShared (r : Relay σ (Ledger τ)) (events : List (SharedEvent τ)) : Relay σ (Ledger τ) :=
  events.foldl nextShared r

def sharedTurnsBy (r : Relay σ (Ledger τ)) : SharedEvent τ → List Turn
  | .relay call => r.turnsBy call
  | .ledger _ => []

/-- The turns of a sequence of events, in order. What comes to the ledger from elsewhere is no
turn. -/
def sharedTurns (r : Relay σ (Ledger τ)) : List (SharedEvent τ) → List Turn
  | [] => []
  | event :: events => r.sharedTurnsBy event ++ (r.nextShared event).sharedTurns events

variable {policy : RelayPolicy} {r : Relay σ (Ledger τ)} {turns : List Turn}

theorem Tally.next (h : Tally policy r turns) {event : SharedEvent τ}
    (hfed : event.counts = false) :
    Tally policy (r.nextShared event) (turns ++ r.sharedTurnsBy event) := by
  cases event with
  | relay call => exact @Kept.next _ _ _ _ _ r [] turns (Tally.kept policy) h call
  | ledger event =>
    have htotal := r.era.totalOperations_next hfed
    change Tally policy { r with era := r.era.next event } (turns ++ [])
    rw [List.append_nil]
    exact ⟨h.bounded, h.unchanged, htotal ▸ h.total, h.metrics.trans htotal.symm, h.counts⟩

theorem Tally.after (h : Tally policy r turns) {events : List (SharedEvent τ)}
    (hfed : ∀ event ∈ events, event.counts = false) :
    Tally policy (r.afterShared events) (turns ++ r.sharedTurns events) := by
  induction events generalizing r turns with
  | nil =>
    rw [sharedTurns, List.append_nil]
    exact h
  | cons event events ih =>
    obtain ⟨hevent, hevents⟩ := List.forall_mem_cons.1 hfed
    rw [sharedTurns, ← List.append_assoc]
    exact ih (h.next hevent) hevents

/-- Weak operations are counted once. After any run on a new ledger in which only the relay counts,
the total of the ledger, the sum over the reports, the figure of the relay and the number of
positions of reported batches with a settled weak operation are one and the same, which is zero
without the era path. A turn that fails leaves the whole ledger and the figure as they are. -/
theorem weak_operations_counted_once {protocol : ProtocolPolicy} {authority : Address}
    {guardian : Option Address} {token : τ} {now : Timestamp} {ledger : Ledger τ}
    {authorizer : Authorizer} {client : σ}
    (hledger : Ledger.start protocol authority guardian token now = .ok ledger)
    (hstart : Relay.start policy authorizer client ledger = .ok r) {events : List (SharedEvent τ)}
    (hfed : ∀ event ∈ events, event.counts = false) :
    (r.afterShared events).era.era.totalOperations.val =
        ((r.sharedTurns events).map Turn.counted).sum ∧
      (r.afterShared events).metrics.totalEraOperations =
        (r.afterShared events).era.era.totalOperations ∧
      (r.afterShared events).era.era.totalOperations.val =
        ((r.sharedTurns events).map (Turn.settledWeak policy.batching)).sum ∧
      (∀ turn ∈ r.sharedTurns events, turn.Counts policy.batching) ∧
      (policy.batching.eraPathEnabled = false →
        (r.afterShared events).era.era.totalOperations = 0) ∧
      ∀ later e next, (r.afterShared events).processBatch later = (.error e, next) →
        next.era = (r.afterShared events).era ∧
        next.metrics.totalEraOperations = (r.afterShared events).metrics.totalEraOperations := by
  have h := (Tally.start hledger hstart).after hfed
  rw [List.nil_append] at h
  refine ⟨h.total, h.metrics, h.total_eq_settledWeak, h.counts, fun hoff => ?_,
    fun later e next hfailed => ?_⟩
  · rw [← Word.val_eq_zero_iff, h.total_eq_settledWeak,
      List.map_congr_left fun turn _ => turn.settledWeak_eq_zero hoff, List.map_const',
      List.sum_replicate_nat, Nat.mul_zero]
  · have hprocessed := (r.afterShared events).processed later
    rw [hfailed] at hprocessed
    exact hprocessed.counts_of_error

end run

/-- A strong and a weak payment whose first settlement fails, the end of the period, and another
weak payment before all are settled. -/
def countedRun : List (SharedEvent PoolToken) :=
  [.relay (.submit (payment 1 10 false)), .relay (.submit (payment 2 20 true)),
    .relay (.process .epoch),
    .ledger (.request ⟨⟨⟨1⟩, Timestamp.epoch.after (.ofSeconds 3600), 1⟩, .advancePeriod⟩),
    .relay (.submit (payment 3 30 true)), .relay (.flush .epoch)]

/-- Each of the two weak payments is counted once, although the first of them is in two batches. -/
theorem weak_operations_counted_once_of_retry :
    ∃ (ledger : Ledger PoolToken) (r : Relay ScriptedClient (Ledger PoolToken)),
      Ledger.start {} ⟨1⟩ none .empty .epoch = .ok ledger ∧
      Relay.start { batching := { minBatchSize := 1, maxBatchSize := 2 } } .trusting
        ⟨{ failing := [0] }, []⟩ ledger = .ok r ∧
      (∀ event ∈ countedRun, event.counts = false) ∧
      ((r.sharedTurns countedRun).map Turn.counted) = [0, 1, 1] ∧
      (r.afterShared countedRun).era.era.totalOperations.val = 2 ∧
      (r.afterShared countedRun).metrics.totalEraOperations =
        (r.afterShared countedRun).era.era.totalOperations := by
  obtain ⟨ledger, hledger⟩ : ∃ ledger : Ledger PoolToken,
      Ledger.start {} ⟨1⟩ none .empty .epoch = .ok ledger := ⟨_, rfl⟩
  obtain ⟨r, hstart⟩ : ∃ r : Relay ScriptedClient (Ledger PoolToken),
      Relay.start { batching := { minBatchSize := 1, maxBatchSize := 2 } } .trusting
        ⟨{ failing := [0] }, []⟩ ledger = .ok r := ⟨_, rfl⟩
  have hfed : ∀ event ∈ countedRun, event.counts = false := by decide
  have hcounted : (r.sharedTurns countedRun).map Turn.counted = [0, 1, 1] := by
    cases hledger
    cases hstart
    decide +kernel
  obtain ⟨htotal, hmetrics, -⟩ := weak_operations_counted_once hledger hstart hfed
  rw [hcounted] at htotal
  exact ⟨ledger, r, hledger, hstart, hfed, hcounted, htotal, hmetrics⟩

end Relay

end Settlement
