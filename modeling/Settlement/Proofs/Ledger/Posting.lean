import Settlement.Proofs.Commitment
import Settlement.Proofs.Ledger.Event

namespace Settlement

/-- The root that a request puts in force for a period if it is granted. -/
def Request.root? (p : PeriodId) : Request → Option Digest
  | .postCommitment period root => if period = p then some root else none
  | .replaceCommitment period root => if period = p then some root else none
  | _ => none

/-- The request is an objection to the root of a period. -/
def Request.disputes (p : PeriodId) : Request → Bool
  | .disputeCommitment period => period = p
  | _ => false

theorem Request.root?_of_claims {request : Request} (h : request.claims ≠ []) (p : PeriodId) :
    request.root? p = none ∧ request.disputes p = false := by
  cases request with
  | revealClaim _ | revealClaimBatch _ _ _ _ => exact ⟨rfl, rfl⟩
  | _ => exact absurd rfl h

namespace Ledger

variable {τ : Type} {l l' : Ledger τ} {p : PeriodId}

/-- What becomes of the root of a period when a request is granted. Only a posting, a replacement
and a dispute touch it. -/
inductive Reposts (l : Ledger τ) (p : PeriodId) (now : Timestamp) :
    Request → Option Commitment → Prop
  | kept {request : Request} (hroot : request.root? p = none)
      (hdisputes : request.disputes p = false) : Reposts l p now request (l.commitment? p)
  | first {root : Digest} (hnone : l.commitment? p = none) (hclosed : l.era.isClosed p = true) :
      Reposts l p now (.postCommitment p root) (some (.first l.claimPolicy p root now))
  | renewed {request : Request} {root : Digest} {old : Commitment} {replacements : Word 32}
      (hroot : request.root? p = some root) (hold : l.commitment? p = some old) :
      Reposts l p now request
        (some { old with root, postedAt := now, replacements, dispute := none })
  | disputed {old : Commitment} {raised : Dispute} (hold : l.commitment? p = some old)
      (hopen : now < old.objectionEnd l.governance.policy) :
      Reposts l p now (.disputeCommitment p) (some { old with dispute := some raised })

/-- What the money that a request moves leaves as it is. -/
structure SameTerms (l l' : Ledger τ) : Prop where
  era : l'.era = l.era
  eraPolicy : l'.eraPolicy = l.eraPolicy
  commitments : l'.commitments = l.commitments
  policy : SamePolicy l l'

/-- A posted period stays posted; its first posting and its claim deadline stay what they are. -/
theorem Reposts.keeps {now : Timestamp} {request : Request} {row : Option Commitment}
    (h : Reposts l p now request row) {c : Commitment} (hold : l.commitment? p = some c) :
    ∃ c', row = some c' ∧ c'.firstPostedAt = c.firstPostedAt ∧
      c'.claimDeadline = c.claimDeadline := by
  cases h with
  | kept => exact ⟨c, hold, rfl, rfl⟩
  | first hnone =>
    rw [hold] at hnone
    cases hnone
  | renewed _ hold' | disputed hold' =>
    rw [hold] at hold'
    cases hold'
    exact ⟨_, rfl, rfl, rfl⟩

theorem Reposts.origin {now : Timestamp} {request : Request} {c : Commitment}
    (h : Reposts l p now request (some c)) (hnone : l.commitment? p = none) :
    l.era.isClosed p = true ∧
      ∃ root, request = .postCommitment p root ∧ c = .first l.claimPolicy p root now := by
  generalize hrow : some c = row at h
  cases h with
  | kept =>
    rw [hnone] at hrow
    cases hrow
  | @first root _ hclosed =>
    cases hrow
    exact ⟨hclosed, root, rfl, rfl⟩
  | renewed _ hold | disputed hold =>
    rw [hnone] at hold
    cases hold

theorem SameTerms.reposts (h : SameTerms l l') {request : Request} {now : Timestamp}
    (hroot : request.root? p = none) (hdisputes : request.disputes p = false) :
    Reposts l p now request (l'.commitment? p) := by
  have hrow : l'.commitment? p = l.commitment? p :=
    congrArg (fun commitments : CommitmentBook => commitments.get? p) h.commitments
  rw [hrow]
  exact .kept hroot hdisputes

private theorem reposts_posted {ctx : CallContext} {period : PeriodId} {root : Digest}
    {c : Commitment} {commitments : CommitmentBook} (hclosed : l.era.isClosed period = true)
    (hpost : l.commitments.post l.claimPolicy l.governance.policy period root ctx.now =
      .ok (c, commitments)) :
    Reposts l p ctx.now (.postCommitment period root) (commitments.get? p) := by
  obtain ⟨rfl, hrow⟩ := CommitmentBook.post_eq_ok hpost
  rw [CommitmentBook.get?_set]
  by_cases hp : p = period
  · subst hp
    rw [if_pos rfl]
    rcases hrow with ⟨hnone, rfl⟩ | ⟨old, hold, hundisputed, -, rfl⟩
    · exact .first hnone hclosed
    · have hold' : ({ old with root, postedAt := ctx.now } : Commitment) =
          { old with root, postedAt := ctx.now, dispute := none } := by rw [← hundisputed]
      rw [hold']
      exact .renewed (if_pos rfl) hold
  · rw [if_neg hp]
    exact .kept (if_neg (Ne.symm hp)) rfl

private theorem reposts_disputed {ctx : CallContext} {period : PeriodId}
    {commitments : CommitmentBook}
    (hdispute : l.commitments.dispute l.governance.policy ctx.caller period ctx.now =
      .ok commitments) :
    Reposts l p ctx.now (.disputeCommitment period) (commitments.get? p) := by
  obtain ⟨c, raised, hget, -, hopen, hrows⟩ := CommitmentBook.dispute_eq_ok hdispute
  rw [hrows]
  by_cases hp : p = period
  · subst hp
    rw [if_pos rfl]
    exact .disputed hget hopen
  · rw [if_neg hp]
    exact .kept rfl (decide_eq_false (Ne.symm hp))

private theorem reposts_replaced {ctx : CallContext} {period : PeriodId} {root : Digest}
    {replacements : Word 32} {commitments : CommitmentBook}
    (hreplace : l.commitments.replace period root ctx.now = .ok (replacements, commitments)) :
    Reposts l p ctx.now (.replaceCommitment period root) (commitments.get? p) := by
  obtain ⟨old, -, hold, -, rfl⟩ := CommitmentBook.replace_eq_ok hreplace
  rw [CommitmentBook.get?_set]
  by_cases hp : p = period
  · subst hp
    rw [if_pos rfl]
    exact .renewed (if_pos rfl) hold
  · rw [if_neg hp]
    exact .kept (if_neg (Ne.symm hp)) rfl

theorem Controlled.reposts {ctx : CallContext} {request : Request} {answer : Answer}
    (h : Controlled l ctx request answer l') (p : PeriodId) :
    Reposts l p ctx.now request (l'.commitment? p) := by
  cases h with
  | posted _ hclosed hpost => exact reposts_posted hclosed hpost
  | disputed _ hdispute => exact reposts_disputed hdispute
  | replaced _ hreplace => exact reposts_replaced hreplace
  | resumed =>
    split
    · exact .kept rfl rfl
    · exact .kept rfl rfl
  | governed hchange =>
    cases request with
    | postCommitment _ _ | replaceCommitment _ _ | disputeCommitment _ => cases hchange
    | _ => exact .kept rfl rfl
  | _ => exact .kept rfl rfl

section token

variable [PayoutToken τ]

theorem PaidOut.terms {who : Address} {reserved : List Reservation} {total : Amount}
    {outcome : Outcome τ (TransferReceipt × List Amount)} (h : PaidOut l who reserved total outcome) :
    SameTerms l outcome.2 := by
  cases h with
  | _ => exact ⟨rfl, rfl, rfl, ⟨rfl, rfl, rfl⟩⟩

/-- A request that is not granted leaves the posted roots and the era as they are. -/
theorem Handled.terms {ctx : CallContext} {request : Request} {outcome : Outcome τ Answer}
    (h : Handled l ctx request outcome) :
    (∃ answer, outcome.1 = .ok answer ∧ Controlled l ctx request answer outcome.2) ∨
      SameTerms l outcome.2 := by
  cases h with
  | quiet hcontrolled => exact Or.inl ⟨_, rfl, hcontrolled⟩
  | claimed => exact Or.inr (paidOut ..).terms
  | batchClaimed => exact Or.inr (paidOut ..).terms
  | _ => exact Or.inr ⟨rfl, rfl, rfl, ⟨rfl, rfl, rfl⟩⟩

theorem reposts_of_ok {call : Call} {answer : Answer}
    (h : (l.handle call.ctx call.request).1 = .ok answer) (p : PeriodId) :
    Reposts l p call.ctx.now call.request ((l.step call).commitment? p) := by
  obtain ⟨ctx, request⟩ := call
  have hhandled := handled l ctx request
  change Reposts l p ctx.now request ((l.handle ctx request).2.commitment? p)
  generalize l.handle ctx request = outcome at h hhandled ⊢
  cases hhandled with
  | refused => cases h
  | quiet hcontrolled => exact hcontrolled.reposts p
  | claimed => exact (PaidOut.terms (paidOut ..)).reposts rfl rfl
  | batchClaimed => exact (PaidOut.terms (paidOut ..)).reposts rfl rfl
  | _ => exact .kept rfl rfl

theorem commitments_step_of_error {call : Call} {e : Error}
    (h : (l.handle call.ctx call.request).1 = .error e) :
    (l.step call).commitments = l.commitments := by
  rcases (handled l call.ctx call.request).terms with ⟨_, hok, -⟩ | hterms
  · rw [h] at hok
    cases hok
  · exact hterms.commitments

theorem samePolicy_step (l : Ledger τ) (call : Call) : SamePolicy l (l.step call) := by
  rcases (handled l call.ctx call.request).terms with ⟨_, -, hcontrolled⟩ | hterms
  · exact hcontrolled.samePolicy
  · exact hterms.policy

theorem eraMoved_step (l : Ledger τ) (call : Call) :
    EraMoved l call.ctx.now call.request (l.step call) := by
  rcases (handled l call.ctx call.request).terms with ⟨_, -, hcontrolled⟩ | hterms
  · exact hcontrolled.eraMoved
  · exact .kept hterms.era hterms.eraPolicy

theorem samePolicy_after (l : Ledger τ) (events : List (Event τ)) :
    SamePolicy l (l.after events) := by
  refine after_of_next (P := SamePolicy l) (fun l' event h => ?_) (.refl l) events
  cases event with
  | request call => exact h.trans (samePolicy_step l' call)
  | token change => exact ⟨h.claims, h.recovery, h.domain⟩

/-- The request of a call, if it is granted, and nothing if it is refused. What is granted in a run
is gathered from these. -/
def grant (l : Ledger τ) (call : Call) : List Call :=
  if (l.handle call.ctx call.request).1.isOk then [call] else []

/-- The calls of a run that are granted, in order, each in the state that it meets. -/
def granted (l : Ledger τ) (events : List (Event τ)) : List Call := l.gather grant events

theorem mem_grant {call granted : Call} (h : granted ∈ l.grant call) : granted = call := by
  unfold grant at h
  split at h
  · exact List.mem_singleton.1 h
  · cases h

theorem mem_calls_of_mem_granted {call : Call} {events : List (Event τ)}
    (h : call ∈ l.granted events) : call ∈ events.filterMap Event.call? :=
  mem_calls_of_mem_gather (fun _ _ _ hgranted => List.mem_singleton.2 (mem_grant hgranted)) h

theorem exists_ok_of_grant {call : Call} (h : l.grant call = [call]) :
    ∃ answer, (l.handle call.ctx call.request).1 = .ok answer := by
  unfold grant at h
  split at h
  · next hok =>
    cases hanswer : (l.handle call.ctx call.request).1 with
    | ok answer => exact ⟨answer, rfl⟩
    | error e =>
      rw [hanswer] at hok
      cases hok
  · cases h

/-- A call that is granted in a run is granted in the state that it meets. -/
theorem exists_of_mem_granted {call : Call} {events : List (Event τ)}
    (h : call ∈ l.granted events) : ∃ before rest,
      events = before ++ .request call :: rest ∧ (l.after before).grant call = [call] := by
  obtain ⟨before, first, rest, hevents, hgrant⟩ := exists_of_mem_gather h
  obtain rfl := mem_grant hgrant
  refine ⟨before, rest, hevents, ?_⟩
  unfold grant at hgrant ⊢
  split at hgrant
  · next hok => exact if_pos hok
  · cases hgrant

/-- What every call keeps that is refused or one of these holds after any events in which no others
are granted. -/
theorem after_of_granted {P : Ledger τ → Prop} {A : Call → Prop}
    (hstep : ∀ l call, (∀ granted ∈ l.grant call, A granted) → P l → P (l.step call))
    (htoken : ∀ l (change : τ → τ), P l → P { l with token := change l.token })
    (h : P l) {events : List (Event τ)} (hallowed : ∀ call ∈ l.granted events, A call) :
    P (l.after events) := by
  induction events generalizing l with
  | nil => exact h
  | cons event rest ih =>
    cases event with
    | token change => exact ih (htoken l change h) hallowed
    | request call =>
      obtain ⟨hcall, hrest⟩ := List.forall_mem_append.1 hallowed
      exact ih (hstep l call hcall h) hrest

theorem reposts (l : Ledger τ) (call : Call) (p : PeriodId) :
    (l.grant call = [] ∧ (l.step call).commitment? p = l.commitment? p) ∨
      (l.grant call = [call] ∧
        Reposts l p call.ctx.now call.request ((l.step call).commitment? p)) := by
  unfold grant
  cases hanswer : (l.handle call.ctx call.request).1 with
  | error e =>
    refine Or.inl ⟨rfl, ?_⟩
    exact congrArg (fun b : CommitmentBook => b.get? p) (commitments_step_of_error hanswer)
  | ok answer => exact Or.inr ⟨rfl, reposts_of_ok hanswer p⟩

theorem reposts_of_grant {call : Call} (h : l.grant call = [call]) (p : PeriodId) :
    Reposts l p call.ctx.now call.request ((l.step call).commitment? p) := by
  rcases reposts l call p with ⟨hrefused, -⟩ | ⟨-, hreposts⟩
  · rw [h] at hrefused
    cases hrefused
  · exact hreposts

/-- A request that is no posting, replacement or dispute leaves the root of a period alone. -/
theorem commitment?_step {call : Call} (hroot : call.request.root? p = none)
    (hdisputes : call.request.disputes p = false) :
    (l.step call).commitment? p = l.commitment? p := by
  rcases reposts l call p with ⟨-, hsame⟩ | ⟨-, hreposts⟩
  · exact hsame
  · obtain ⟨ctx, request⟩ := call
    generalize (l.step ⟨ctx, request⟩).commitment? p = row at hreposts ⊢
    cases hreposts with
    | kept => rfl
    | first => simp [Request.root?] at hroot
    | renewed hput =>
      rw [hput] at hroot
      cases hroot
    | disputed => simp [Request.disputes] at hdisputes

end token

/-- The last of these calls that put a root in force for a period is `posting`. -/
def LastPosting (p : PeriodId) (posting : Call) (since calls : List Call) : Prop :=
  (∃ earlier, calls = earlier ++ posting :: since) ∧ ∀ call ∈ since, call.request.root? p = none

/-- The commitment of a period stems from the last posting of its root, and is disputed if a dispute
came since. So the root in force is that of the last posting or replacement that was granted. -/
def Traced (p : PeriodId) (calls : List Call) (c : Commitment) : Prop :=
  ∃ posting since, LastPosting p posting since calls ∧ posting.request.root? p = some c.root ∧
    posting.ctx.now = c.postedAt ∧
      (c.dispute = none → ∀ call ∈ since, call.request.disputes p = false)

section Traced

variable {calls since : List Call} {call posting : Call} {c : Commitment}

theorem LastPosting.mem {posting : Call} {since calls : List Call}
    (h : LastPosting p posting since calls) : posting ∈ calls := by
  obtain ⟨⟨earlier, rfl⟩, -⟩ := h
  exact List.mem_append_right _ List.mem_cons_self

theorem LastPosting.concat (h : LastPosting p posting since calls)
    (hroot : call.request.root? p = none) :
    LastPosting p posting (since ++ [call]) (calls ++ [call]) := by
  obtain ⟨⟨earlier, rfl⟩, hsince⟩ := h
  refine ⟨⟨earlier, by simp⟩, ?_⟩
  rw [List.forall_mem_append, List.forall_mem_singleton]
  exact ⟨hsince, hroot⟩

theorem traced_posting (hroot : call.request.root? p = some c.root)
    (htime : call.ctx.now = c.postedAt) : Traced p (calls ++ [call]) c :=
  ⟨call, [], ⟨⟨calls, rfl⟩, fun _ h => absurd h List.not_mem_nil⟩, hroot, htime,
    fun _ _ h => absurd h List.not_mem_nil⟩

theorem Traced.concat (h : Traced p calls c) {c' : Commitment}
    (hroot : call.request.root? p = none) (hsame : c'.root = c.root ∧ c'.postedAt = c.postedAt)
    (hdispute : c'.dispute = none → c.dispute = none ∧ call.request.disputes p = false) :
    Traced p (calls ++ [call]) c' := by
  obtain ⟨posting, since, hlast, hput, htime, hundisputed⟩ := h
  refine ⟨posting, since ++ [call], hlast.concat hroot, hsame.1 ▸ hput, hsame.2 ▸ htime,
    fun hnone => ?_⟩
  obtain ⟨hnone, hdisputes⟩ := hdispute hnone
  rw [List.forall_mem_append, List.forall_mem_singleton]
  exact ⟨hundisputed hnone, hdisputes⟩

theorem Reposts.traced {row : Option Commitment}
    (h : Reposts l p call.ctx.now call.request row)
    (htraced : ∀ c, l.commitment? p = some c → Traced p calls c) :
    ∀ c, row = some c → Traced p (calls ++ [call]) c := by
  obtain ⟨ctx, request⟩ := call
  intro c hrow
  cases h with
  | kept hroot hdisputes =>
    exact (htraced c hrow).concat hroot ⟨rfl, rfl⟩ fun hnone => ⟨hnone, hdisputes⟩
  | first =>
    cases hrow
    exact traced_posting (if_pos rfl) rfl
  | renewed hroot =>
    cases hrow
    exact traced_posting hroot rfl
  | disputed hold =>
    cases hrow
    exact (htraced _ hold).concat rfl ⟨rfl, rfl⟩ fun hnone => by cases hnone

/-- The root of every period can be traced to a call of the run that was granted. -/
theorem traced_after [PayoutToken τ] (hnone : ∀ p, l.commitment? p = none)
    (events : List (Event τ)) (p : PeriodId) {c : Commitment}
    (hrow : (l.after events).commitment? p = some c) : Traced p (l.granted events) c := by
  have hstart : ∀ p c, l.commitment? p = some c → Traced p [] c := by
    intro p c hsome
    rw [hnone p] at hsome
    cases hsome
  refine gather_of_next (f := grant)
    (P := fun l calls => ∀ p c, l.commitment? p = some c → Traced p calls c)
    (fun l call before h p => ?_) (fun _ _ _ h => h) hstart events p c hrow
  rcases reposts l call p with ⟨hgrant, hsame⟩ | ⟨hgrant, hreposts⟩
  · rw [hgrant, hsame, List.append_nil]
    exact h p
  · rw [hgrant]
    exact hreposts.traced (h p)

end Traced

/-- Nobody objects to the root of a period before it has another. -/
def Unopposed (p : PeriodId) (calls : List Call) : Prop :=
  ∀ call ∈ calls.takeWhile fun call => (call.request.root? p).isNone,
    call.request.disputes p = false

/-- Once objections to a root come too late, none is granted as long as time does not go back. -/
theorem unopposed_granted [PayoutToken τ] {c : Commitment} {t : Timestamp}
    {events : List (Event τ)} (hrow : l.commitment? p = some c)
    (hover : c.objectionEnd l.governance.policy ≤ t)
    (hlater : ∀ call ∈ events.filterMap Event.call?, t ≤ call.ctx.now) :
    Unopposed p (l.granted events) := by
  induction events generalizing l with
  | nil => exact fun _ h => absurd h List.not_mem_nil
  | cons event rest ih =>
    cases event with
    | token change => exact ih (l := { l with token := change l.token }) hrow hover hlater
    | request call =>
      obtain ⟨hnow, hlater⟩ : t ≤ call.ctx.now ∧
          ∀ call ∈ rest.filterMap Event.call?, t ≤ call.ctx.now := List.forall_mem_cons.1 hlater
      have hrest (hsame : (l.step call).commitment? p = l.commitment? p) :
          Unopposed p ((l.step call).granted rest) := by
        refine ih (hsame.trans hrow) ?_ hlater
        rw [(samePolicy_step l call).recovery]
        exact hover
      change Unopposed p (l.grant call ++ (l.step call).granted rest)
      rcases reposts l call p with ⟨hgrant, hsame⟩ | ⟨hgrant, hreposts⟩
      · rw [hgrant]
        exact hrest hsame
      · rw [hgrant]
        obtain ⟨ctx, request⟩ := call
        generalize hafter : (l.step ⟨ctx, request⟩).commitment? p = row at hreposts hrest
        cases hreposts with
        | kept hroot hdisputes =>
          intro call hmem
          rw [List.singleton_append, List.takeWhile_cons_of_pos (by simp [hroot]),
            List.mem_cons] at hmem
          rcases hmem with rfl | hmem
          · exact hdisputes
          · exact hrest rfl call hmem
        | first hnone =>
          rw [hrow] at hnone
          cases hnone
        | renewed hroot =>
          intro call hmem
          rw [List.singleton_append, List.takeWhile_cons_of_neg (by simp [hroot])] at hmem
          cases hmem
        | disputed hold hopen =>
          rw [hrow] at hold
          cases hold
          exact absurd hopen (Timestamp.not_lt.2 (Timestamp.le_trans hover hnow))

end Ledger

end Settlement
