import Settlement.Proofs.Ledger.Roles
import Settlement.Token.Pool

namespace Settlement

/-- A granted request of this kind lifts the halt. There is only one. -/
def Request.liftsHalt : Request → Bool
  | .unhalt => true
  | _ => false

/-- The changes of a token from outside alone, in order. Under a halt the token is only changed by
these. -/
def Event.outside {τ : Type} (token : τ) : List (Event τ) → τ
  | [] => token
  | .request _ :: rest => outside token rest
  | .token change :: rest => outside (change token) rest

theorem HaltSwitch.Moved.isHalted {h h' : HaltSwitch} {g : Governance} {ctx : CallContext}
    {request : Request} (hmoved : h.Moved g ctx request h') (hhalted : h.isHalted = true)
    (hkeeps : request.liftsHalt = false) : h'.isHalted = true := by
  cases hmoved with
  | kept => exact hhalted
  | raised => rfl
  | lifted => cases hkeeps

/-- What may become of the row of a posted root without a posting or a replacement: an objection is
raised where there was none. -/
inductive Commitment.Objected (row : Option Commitment) : Option Commitment → Prop
  | kept : Objected row row
  | raised {c : Commitment} {dispute : Dispute} (hrow : row = some c)
      (hundisputed : c.dispute = none) : Objected row (some { c with dispute := some dispute })

theorem Commitment.Objected.trans {row row' row'' : Option Commitment} (h : Objected row row')
    (h' : Objected row' row'') : Objected row row'' := by
  cases h with
  | kept => exact h'
  | raised hrow hundisputed =>
    cases h' with
    | kept => exact .raised hrow hundisputed
    | raised hrow' hundisputed' =>
      cases hrow'
      cases hundisputed'

namespace Ledger

variable {τ : Type} {l l' l'' : Ledger τ} {ctx : CallContext}

/-- Nothing of value has moved: the funds and the marks of paid claims are the same, no period was
closed, and roots were objected to at most. What the ledger answers to meanwhile are the roles, the
prices, the counting of operations, the commitments of claimants, and objections of the guardian. -/
structure Frozen (l l' : Ledger τ) : Prop where
  funds : l'.funds = l.funds
  registry : l'.registry = l.registry
  current : l'.era.current = l.era.current
  startedAt : l'.era.startedAt = l.era.startedAt
  snapshots : l'.era.snapshots = l.era.snapshots
  commitments : ∀ p, Commitment.Objected (l.commitment? p) (l'.commitment? p)

theorem Frozen.refl (l : Ledger τ) : Frozen l l := ⟨rfl, rfl, rfl, rfl, rfl, fun _ => .kept⟩

theorem Frozen.trans (h : Frozen l l') (h' : Frozen l' l'') : Frozen l l'' where
  funds := h'.funds.trans h.funds
  registry := h'.registry.trans h.registry
  current := h'.current.trans h.current
  startedAt := h'.startedAt.trans h.startedAt
  snapshots := h'.snapshots.trans h.snapshots
  commitments p := (h.commitments p).trans (h'.commitments p)

theorem isHalted_of_checkOperator (h : l.checkOperator ctx.caller = .ok ()) :
    l.isHalted = false := by
  obtain ⟨_, -, hlive⟩ := Result.bind_eq_ok_iff.1 h
  exact checkNotHalted_eq_ok_iff.1 hlive

theorem isHalted_of_checkDeposit {period : PeriodId} {amount : Amount}
    (h : l.checkDeposit ctx period amount = .ok ()) : l.isHalted = false := by
  obtain ⟨_, hoperator, -⟩ := Result.bind_eq_ok_iff.1 h
  exact isHalted_of_checkOperator hoperator

theorem isHalted_of_checkSweep {period : PeriodId} {treasury : Address}
    (h : l.checkSweep ctx period treasury = .ok ()) : l.isHalted = false := by
  obtain ⟨_, hoperator, -⟩ := Result.bind_eq_ok_iff.1 h
  exact isHalted_of_checkOperator hoperator

/-- Under a halt the requests that move no money are those for the roles and the halt itself, for
prices and counts, for commitments of claimants, and for objections. -/
theorem Controlled.frozen {request : Request} {answer : Answer}
    (h : Controlled l ctx request answer l') (hhalted : l.isHalted = true) : Frozen l l' := by
  cases h with
  | advanced hoperator | posted hoperator | replaced hoperator =>
    rw [isHalted_of_checkOperator hoperator] at hhalted
    cases hhalted
  | @priced schedule era _ hera =>
    have hstepped : Era.Stepped l.era (.setFeeSchedule schedule) era := Era.stepped hera
    cases hstepped with
    | priced => exact ⟨rfl, rfl, rfl, rfl, rfl, fun _ => .kept⟩
  | @counted count era hera =>
    have hstepped : Era.Stepped l.era (.record count) era := Era.stepped hera
    cases hstepped with
    | recorded => exact ⟨rfl, rfl, rfl, rfl, rfl, fun _ => .kept⟩
  | disputed _ hdispute =>
    obtain ⟨c, raised, hget, hundisputed, -, hrows⟩ := CommitmentBook.dispute_eq_ok hdispute
    refine ⟨rfl, rfl, rfl, rfl, rfl, fun p => ?_⟩
    change Commitment.Objected (l.commitments.get? p) (CommitmentBook.get? _ p)
    rw [hrows]
    split
    · next hp => exact .raised (hp ▸ hget) hundisputed
    · exact .kept
  | resumed =>
    split
    · exact ⟨rfl, rfl, rfl, rfl, rfl, fun _ => .kept⟩
    · exact ⟨rfl, rfl, rfl, rfl, rfl, fun _ => .kept⟩
  | committed | halted | governed => exact ⟨rfl, rfl, rfl, rfl, rfl, fun _ => .kept⟩

variable [PayoutToken τ]

theorem frozen_step (hhalted : l.isHalted = true) (call : Call) :
    Frozen l (l.step call) ∧ (l.step call).token = l.token := by
  obtain ⟨ctx, request⟩ := call
  have hhandled := handled l ctx request
  change Frozen l (l.handle ctx request).2 ∧ (l.handle ctx request).2.token = l.token
  generalize l.handle ctx request = outcome at hhandled ⊢
  have hlive (h : l.isHalted = false) : False := by
    rw [hhalted] at h
    cases h
  cases hhandled with
  | refused => exact ⟨.refl l, rfl⟩
  | quiet hcontrolled => exact ⟨hcontrolled.frozen hhalted, hcontrolled.money.2.2⟩
  | uncollected hcheck | unrecorded hcheck | deposited hcheck =>
    exact (hlive (isHalted_of_checkDeposit hcheck)).elim
  | emptied hcheck | unpaid hcheck | swept hcheck =>
    exact (hlive (isHalted_of_checkSweep hcheck)).elim
  | claimed hpassed => exact (hlive (admitOne_eq_ok_iff.1 hpassed).2.1).elim
  | batchClaimed _ hpassed => exact (hlive (admitAll_eq_ok_iff.1 hpassed).2.1).elim

theorem isHalted_step {call : Call} (hhalted : l.isHalted = true)
    (hkeeps : ∀ granted ∈ l.grant call, granted.request.liftsHalt = false) :
    (l.step call).isHalted = true := by
  rcases roles l call with ⟨-, hsame⟩ | ⟨hgrant, hmoved⟩
  · unfold isHalted
    rw [hsame.halt]
    exact hhalted
  · rw [hgrant, List.forall_mem_singleton] at hkeeps
    exact hmoved.halt.isHalted hhalted hkeeps

/-- A halt freezes value. From a halted state on, as long as no request to lift the halt is granted,
the ledger stays halted, all funds and all marks of paid claims stay what they are, no period is
closed, no root is posted or replaced, and the token is what others make of it: a run of requests
alone leaves it as it is. The one thing that happens to a posted root is an objection, where there
was none. -/
theorem frozen_while_halted (hhalted : l.isHalted = true) {later : List (Event τ)}
    (hkeeps : ∀ call ∈ l.granted later, call.request.liftsHalt = false) :
    (l.after later).isHalted = true ∧ Frozen l (l.after later) ∧
      (l.after later).token = Event.outside l.token later := by
  induction later generalizing l with
  | nil => exact ⟨hhalted, .refl l, rfl⟩
  | cons event rest ih =>
    cases event with
    | token change =>
      have hchange : Frozen l { l with token := change l.token } :=
        ⟨rfl, rfl, rfl, rfl, rfl, fun _ => .kept⟩
      obtain ⟨hstays, hfrozen, htoken⟩ :=
        ih (l := { l with token := change l.token }) hhalted hkeeps
      exact ⟨hstays, hchange.trans hfrozen, htoken⟩
    | request call =>
      obtain ⟨hcall, hrest⟩ := List.forall_mem_append.1 hkeeps
      obtain ⟨hfrozen, htoken⟩ := frozen_step hhalted call
      obtain ⟨hstays, hfrozen', htoken'⟩ := ih (isHalted_step hhalted hcall) hrest
      refine ⟨hstays, hfrozen.trans hfrozen', ?_⟩
      rw [htoken] at htoken'
      exact htoken'

/-- A period is funded, closed and posted, and the authority raises the halt. -/
def haltedRun : List (Event PoolToken) :=
  [.request ⟨⟨⟨1⟩, .epoch, 1⟩, .deposit ⟨0⟩ 500⟩,
   .request ⟨⟨⟨1⟩, Timestamp.epoch.after (.ofSeconds 3600), 1⟩, .advancePeriod⟩,
   .request ⟨⟨⟨1⟩, Timestamp.epoch.after (.ofSeconds 3600), 1⟩, .postCommitment ⟨0⟩ 7⟩,
   .request ⟨⟨⟨1⟩, Timestamp.epoch.after (.ofSeconds 3600), 1⟩, .halt⟩]

/-- What the guardian and others are granted under the halt, among requests that are refused. -/
def frozenRun : List (Event PoolToken) :=
  [.request ⟨⟨⟨2⟩, Timestamp.epoch.after (.ofSeconds 7200), 1⟩, .disputeCommitment ⟨0⟩⟩,
   .request ⟨⟨⟨1⟩, Timestamp.epoch.after (.ofSeconds 7200), 1⟩, .deposit ⟨1⟩ 100⟩,
   .request ⟨⟨⟨1⟩, Timestamp.epoch.after (.ofSeconds 7200), 1⟩, .setFeeSchedule {}⟩,
   .request ⟨⟨⟨1⟩, Timestamp.epoch.after (.ofSeconds 7200), 1⟩, .recordOperations 5⟩,
   .request ⟨⟨⟨4⟩, Timestamp.epoch.after (.ofSeconds 7200), 1⟩, .commitClaim ⟨0⟩ 9⟩,
   .request ⟨⟨⟨1⟩, Timestamp.epoch.after (.ofSeconds 7200), 1⟩, .unhalt⟩,
   .request ⟨⟨⟨1⟩, Timestamp.epoch.after (.ofSeconds 50400), 1⟩, .replaceCommitment ⟨0⟩ 8⟩,
   .request ⟨⟨⟨1⟩, Timestamp.epoch.after (.ofSeconds 10371600), 1⟩, .sweepPeriod ⟨0⟩ ⟨3⟩⟩]

/-- An objection and a commitment are granted under the halt, and nothing of value moves although
time enough passes for a sweep. -/
theorem frozen_while_halted_of_disputed : ∃ l : Ledger PoolToken,
    Ledger.start {} ⟨1⟩ (some ⟨2⟩) { balances := Table.empty.insert ⟨1⟩ 1000 } .epoch = .ok l ∧
      (l.after haltedRun).isHalted = true ∧
      ((l.after haltedRun).granted frozenRun).length = 4 ∧
      (∀ call ∈ (l.after haltedRun).granted frozenRun, call.request.liftsHalt = false) ∧
      (l.after haltedRun).remaining ⟨0⟩ = 500 ∧
      ((l.after haltedRun).after frozenRun).isHalted = true ∧
      Frozen (l.after haltedRun) ((l.after haltedRun).after frozenRun) ∧
      ((l.after haltedRun).after frozenRun).token = (l.after haltedRun).token := by
  obtain ⟨l, hstart, hhalted, hgranted, hkeeps, hremaining⟩ : ∃ l : Ledger PoolToken,
      Ledger.start {} ⟨1⟩ (some ⟨2⟩) { balances := Table.empty.insert ⟨1⟩ 1000 } .epoch = .ok l ∧
        (l.after haltedRun).isHalted = true ∧
        ((l.after haltedRun).granted frozenRun).length = 4 ∧
        (∀ call ∈ (l.after haltedRun).granted frozenRun, call.request.liftsHalt = false) ∧
        (l.after haltedRun).remaining ⟨0⟩ = 500 :=
    ⟨_, rfl, by decide +kernel, by decide +kernel, by decide +kernel, by decide +kernel⟩
  exact ⟨l, hstart, hhalted, hgranted, hkeeps, hremaining, frozen_while_halted hhalted hkeeps⟩

end Ledger

end Settlement
