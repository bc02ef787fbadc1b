import Settlement.Proofs.Ledger.Roles
import Settlement.Token.Pool

namespace Settlement

namespace Governance

variable {g g' : Governance} {ctx : CallContext} {request : Request}

/-- A pending request for a reset was there before, or is the one that is granted. -/
theorem Moved.asked (h : g.Moved ctx request g') {asked : Timestamp}
    (hasked : g'.strikeResetRequestedAt = some asked) :
    g.strikeResetRequestedAt = some asked ∨
      (request = .requestStrikeReset ∧ ctx.now = asked) := by
  cases h with
  | kept | acted | struck => exact .inl hasked
  | changed hchanged =>
    cases hchanged with
    | resetRequested => exact .inr ⟨rfl, Option.some.inj hasked⟩
    | strikesReset | recovered => cases hasked
    | _ => exact .inl hasked

theorem Moved.guardian_ne_none (h : g.Moved ctx request g') (hguardian : g.guardian ≠ none) :
    g'.guardian ≠ none := by
  cases h with
  | kept | acted | struck => exact hguardian
  | changed hchanged =>
    cases hchanged with
    | guarded => exact Option.some_ne_none _
    | _ => exact hguardian

/-- The guardian is granted a reset once the delay of its request is over, whatever has happened in
between. -/
theorem executeStrikeReset_eq_ok {asked : Timestamp} (hguardian : g.guardian = some ctx.caller)
    (hasked : g.strikeResetRequestedAt = some asked)
    (hready : asked.after g.policy.strikeResetDelay ≤ ctx.now) :
    g.executeStrikeReset ctx = .ok { g with strikes := 0, strikeResetRequestedAt := none } := by
  have hcheck : g.checkGuardian ctx.caller = .ok () := checkGuardian_eq_ok_iff.2 hguardian
  simp [executeStrikeReset, hcheck, hasked, orRefuse, require, hready, bind, Except.bind, pure,
    Except.pure]

end Governance

namespace Ledger

variable {τ : Type} {l : Ledger τ} {reset : Call}

/-- A reset was asked for at this time, before these calls or by one of them. -/
def AskedBy (l : Ledger τ) (calls : List Call) (asked : Timestamp) : Prop :=
  l.governance.strikeResetRequestedAt = some asked ∨
    ∃ call ∈ calls, call.request = .requestStrikeReset ∧ call.ctx.now = asked

theorem AskedBy.concat {calls : List Call} {asked : Timestamp} (h : l.AskedBy calls asked)
    (call : Call) : l.AskedBy (calls ++ [call]) asked := by
  refine h.imp_right ?_
  rintro ⟨earlier, hearlier, hgranted⟩
  exact ⟨earlier, List.mem_append_left _ hearlier, hgranted⟩

variable [PayoutToken τ]

/-- A reset is granted to the guardian of the moment, a reset delay after any guardian asked for
it. -/
theorem grant_executeStrikeReset_iff (hrequest : reset.request = .executeStrikeReset) :
    l.grant reset = [reset] ↔
      ∃ asked, l.governance.guardian = some reset.ctx.caller ∧
        l.governance.strikeResetRequestedAt = some asked ∧
        asked.after l.governance.policy.strikeResetDelay ≤ reset.ctx.now := by
  obtain ⟨ctx, request⟩ := reset
  cases hrequest
  constructor
  · intro hgrant
    have hgovernance := (roles_of_grant hgrant).governance
    generalize (l.step ⟨ctx, .executeStrikeReset⟩).governance = g at hgovernance
    cases hgovernance with
    | kept _ hnone | acted _ _ hnone => cases hnone
    | changed hchanged =>
      cases hchanged with
      | strikesReset hguardian hasked hready => exact ⟨_, hguardian, hasked, hready⟩
  · rintro ⟨asked, hguardian, hasked, hready⟩
    have hreset := Governance.executeStrikeReset_eq_ok hguardian hasked hready
    have hanswer : (l.handle ctx .executeStrikeReset).1 = .ok .done := by
      simp only [handle, handle.done, govern, hreset]
      rfl
    exact if_pos (by rw [hanswer]; rfl)

/-- A pending request for a reset is as old as the run, or was granted in it. -/
theorem asked_after {events : List (Event τ)} {asked : Timestamp}
    (hasked : (l.after events).governance.strikeResetRequestedAt = some asked) :
    l.AskedBy (l.granted events) asked := by
  have hstart : ∀ asked, l.governance.strikeResetRequestedAt = some asked → l.AskedBy [] asked :=
    fun _ => .inl
  refine gather_of_next (f := grant)
    (P := fun l' calls => ∀ asked, l'.governance.strikeResetRequestedAt = some asked →
      l.AskedBy calls asked)
    (fun l' call before ih asked hasked => ?_) (fun _ _ _ ih => ih) hstart events asked hasked
  rcases roles l' call with ⟨hgrant, hsame⟩ | ⟨hgrant, hmoved⟩
  · rw [hsame.governance] at hasked
    rw [hgrant, List.append_nil]
    exact ih asked hasked
  · rw [hgrant]
    rcases hmoved.governance.asked hasked with hold | ⟨hrequest, htime⟩
    · exact (ih asked hold).concat call
    · exact .inr ⟨call, List.mem_append_right _ (List.mem_singleton_self call), hrequest, htime⟩

/-- The call replaces a root, and the strike for it revokes the authority. -/
structure Revokes (l : Ledger τ) (strike : Call) : Prop where
  replaces : ∃ period root, strike.request = .replaceCommitment period root
  granted : l.grant strike = [strike]
  revoked : (l.step strike).governance.isRevoked = true

/-- A strike leaves alone what the guardian has asked for, so a request that is pending when the
authority is revoked is not voided by it. -/
theorem Revokes.moved {strike : Call} (h : l.Revokes strike) :
    (l.step strike).governance = (l.governance.touch strike.ctx.now).strike := by
  obtain ⟨ctx, request⟩ := strike
  obtain ⟨⟨period, root, hreplaces⟩, hgranted, -⟩ := h
  cases hreplaces
  have hgovernance := (roles_of_grant hgranted).governance
  generalize (l.step ⟨ctx, .replaceCommitment period root⟩).governance = g at hgovernance ⊢
  cases hgovernance with
  | kept hfree => cases hfree
  | acted _ _ _ hother => exact absurd rfl (hother period root)
  | struck => rfl
  | changed hchanged => cases hchanged

theorem Revokes.disputed {strike : Call} (h : l.Revokes strike) :
    ∃ p c raised, l.commitment? p = some c ∧ c.dispute = some raised := by
  obtain ⟨ctx, request⟩ := strike
  obtain ⟨⟨period, root, hreplaces⟩, hgranted, -⟩ := h
  cases hreplaces
  obtain ⟨answer, hanswer⟩ := exists_ok_of_grant hgranted
  have hhandled := handled l ctx (.replaceCommitment period root)
  generalize l.handle ctx (.replaceCommitment period root) = outcome at hanswer hhandled
  cases hhandled with
  | refused => cases hanswer
  | quiet hcontrolled =>
    cases hcontrolled with
    | replaced _ hreplace =>
      obtain ⟨old, raised, hrow, hraised, -⟩ := CommitmentBook.replace_eq_ok hreplace
      exact ⟨period, old, raised, hrow, hraised⟩
    | governed hchange => cases hchange

theorem guardian_of_dispute {ctx : CallContext} {p : PeriodId} {answer : Answer}
    (h : (l.handle ctx (.disputeCommitment p)).1 = .ok answer) :
    l.governance.guardian = some ctx.caller := by
  have hhandled := handled l ctx (.disputeCommitment p)
  generalize l.handle ctx (.disputeCommitment p) = outcome at h hhandled
  cases hhandled with
  | refused => cases h
  | quiet hcontrolled =>
    cases hcontrolled with
    | disputed hguardian => exact Governance.checkGuardian_eq_ok_iff.1 hguardian
    | governed hchange => cases hchange

theorem step_requestStrikeReset {ctx : CallContext}
    (hguardian : l.governance.guardian = some ctx.caller) :
    (l.step ⟨ctx, .requestStrikeReset⟩).governance =
      { l.governance with strikeResetRequestedAt := some ctx.now } := by
  have hcheck : l.governance.checkGuardian ctx.caller = .ok () :=
    Governance.checkGuardian_eq_ok_iff.2 hguardian
  have hask : l.governance.requestStrikeReset ctx =
      .ok { l.governance with strikeResetRequestedAt := some ctx.now } := by
    rw [Governance.requestStrikeReset, hcheck]
    rfl
  simp only [step, handle, handle.done, govern, hask]
  rfl

/-- Right after the strike the guardian is granted the reset, once the delay of a request that was
pending before is over. -/
theorem Revokes.grant_reset {strike : Call} (h : l.Revokes strike) {who : Address}
    (hguardian : l.governance.guardian = some who) {asked ready : Timestamp}
    (hasked : l.governance.strikeResetRequestedAt = some asked)
    (hready : asked.after l.governance.policy.strikeResetDelay ≤ ready) :
    (l.step strike).grant ⟨⟨who, ready, 0⟩, .executeStrikeReset⟩ =
      [⟨⟨who, ready, 0⟩, .executeStrikeReset⟩] := by
  refine (grant_executeStrikeReset_iff rfl).2 ⟨asked, ?_⟩
  rw [h.moved]
  exact ⟨hguardian, hasked, hready⟩

/-- If the guardian asks after the strike, the reset is granted once the delay of that is over. -/
theorem Revokes.grant_reset_of_ask {strike : Call} (h : l.Revokes strike) {who : Address}
    (hguardian : l.governance.guardian = some who) {asked ready : Timestamp}
    (hready : asked.after l.governance.policy.strikeResetDelay ≤ ready) :
    ((l.step strike).step ⟨⟨who, asked, 0⟩, .requestStrikeReset⟩).grant
        ⟨⟨who, ready, 0⟩, .executeStrikeReset⟩ = [⟨⟨who, ready, 0⟩, .executeStrikeReset⟩] := by
  have hstruck : (l.step strike).governance.guardian = some who := by
    rw [h.moved]
    exact hguardian
  refine (grant_executeStrikeReset_iff rfl).2 ⟨asked, ?_⟩
  rw [step_requestStrikeReset hstruck, h.moved]
  exact ⟨hguardian, rfl, hready⟩

/-- Every reset after the strike goes by the request that was pending at the strike, or by one that
came after it. -/
theorem Revokes.reset_cases {strike : Call} (h : l.Revokes strike) {between : List (Event τ)}
    (hrequest : reset.request = .executeStrikeReset)
    (hgrant : ((l.step strike).after between).grant reset = [reset]) :
    ∃ asked, asked.after l.governance.policy.strikeResetDelay ≤ reset.ctx.now ∧
      (l.governance.strikeResetRequestedAt = some asked ∨
        ∃ call ∈ between.filterMap Event.call?, call.ctx.now = asked) := by
  obtain ⟨asked, -, hasked, hready⟩ := (grant_executeStrikeReset_iff hrequest).1 hgrant
  have hpolicy : ((l.step strike).after between).governance.policy = l.governance.policy :=
    ((samePolicy_step l strike).trans (samePolicy_after _ between)).recovery
  rw [hpolicy] at hready
  refine ⟨asked, hready, ?_⟩
  rcases asked_after hasked with hold | ⟨call, hcall, -, htime⟩
  · rw [h.moved] at hold
    exact .inl hold
  · exact .inr ⟨call, mem_calls_of_mem_granted hcall, htime⟩

variable {policy : ProtocolPolicy} {authority : Address} {guardian : Option Address} {token : τ}
  {now : Timestamp}

theorem guardian_of_disputed (hunposted : ∀ p, l.commitment? p = none) (events : List (Event τ))
    {p : PeriodId} {c : Commitment} (hrow : (l.after events).commitment? p = some c)
    (hdisputed : c.dispute ≠ none) : (l.after events).governance.guardian ≠ none := by
  refine after_of_next (P := fun l => ∀ p c, l.commitment? p = some c → c.dispute ≠ none →
    l.governance.guardian ≠ none) (fun l event ih p c hrow hdisputed => ?_)
    (fun p c hrow => ?_) events p c hrow hdisputed
  · cases event with
    | token change => exact ih p c hrow hdisputed
    | request call =>
      change (l.step call).commitment? p = some c at hrow
      change (l.step call).governance.guardian ≠ none
      cases hanswer : (l.handle call.ctx call.request).1 with
      | error e =>
        rw [commitment?, commitments_step_of_error hanswer] at hrow
        rw [(roles_of_error hanswer).governance]
        exact ih p c hrow hdisputed
      | ok answer =>
        have hmoved := (roles_of_ok hanswer).governance
        have hreposts := reposts_of_ok hanswer p
        rw [hrow] at hreposts
        generalize hrow' : some c = row at hreposts
        obtain ⟨ctx, request⟩ := call
        cases hreposts with
        | kept => exact hmoved.guardian_ne_none (ih p c hrow'.symm hdisputed)
        | first | renewed =>
          cases hrow'
          exact absurd rfl hdisputed
        | disputed =>
          refine hmoved.guardian_ne_none ?_
          rw [guardian_of_dispute hanswer]
          exact Option.some_ne_none _
  · rw [hunposted p] at hrow
    cases hrow

theorem Revokes.exists_guardian (hstart : Ledger.start policy authority guardian token now = .ok l)
    {events : List (Event τ)} {strike : Call} (h : (l.after events).Revokes strike) :
    ∃ who, (l.after events).governance.guardian = some who := by
  have hunposted : ∀ p, l.commitment? p = none := by
    obtain ⟨-, governance, era, -, -, rfl⟩ := eq_of_start hstart
    exact fun _ => rfl
  obtain ⟨p, old, raised, hrow, hraised⟩ := h.disputed
  refine Option.ne_none_iff_exists'.1 (guardian_of_disputed hunposted events hrow ?_)
  rw [hraised]
  exact Option.some_ne_none _

/-- After a strike that revokes the authority no reset comes before a reset delay has passed,
whatever happens in between, exactly if no request for a reset is pending at the strike whose own
delay ends earlier, unless the delay of the strike is over at once, and no delay that begins later
ends earlier, as it can only from within a leap second that comes next. Other requests of the
guardian after the strike do no harm, as long as time does not go back. -/
theorem strikeReset_waits_iff
    (hstart : Ledger.start policy authority guardian token now = .ok l) {before : List (Event τ)}
    {strike : Call} (hrevokes : (l.after before).Revokes strike)
    (hordered : InOrder (before ++ [.request strike])) :
    (∀ between reset, InOrder (before ++ .request strike :: (between ++ [.request reset])) →
      reset.request = .executeStrikeReset →
      (l.after (before ++ .request strike :: between)).grant reset = [reset] →
        strike.ctx.now.after policy.recovery.strikeResetDelay ≤ reset.ctx.now) ↔
      (∀ asked, (l.after before).governance.strikeResetRequestedAt = some asked →
        strike.ctx.now.after policy.recovery.strikeResetDelay ≤
            asked.after policy.recovery.strikeResetDelay ∨
          strike.ctx.now.after policy.recovery.strikeResetDelay ≤ strike.ctx.now) ∧
      strike.ctx.now.Steady policy.recovery.strikeResetDelay := by
  have hpolicy : (l.after before).governance.policy = policy.recovery := by
    rw [(samePolicy_after l before).recovery, governance_of_start hstart]
  have hafter (between : List (Event τ)) : l.after (before ++ .request strike :: between) =
      ((l.after before).step strike).after between := after_append ..
  rw [← hpolicy]
  constructor
  · intro hwaits
    obtain ⟨who, hguardian⟩ := hrevokes.exists_guardian hstart
    refine ⟨fun asked hasked => Timestamp.le_or_le_of_forall fun ready hlater hready => ?_,
      fun later hlater => (Timestamp.le_or_le_of_forall fun ready hlast hready => ?_).symm⟩
    · -- The guardian goes on at once, or as soon as the pending request allows.
      refine hwaits [] ⟨⟨who, ready, 0⟩, .executeStrikeReset⟩ (hordered.append_request hlater) rfl ?_
      rw [hafter]
      exact hrevokes.grant_reset hguardian hasked hready
    · -- The guardian asks at the later time, and goes on as soon as that request allows.
      let ask : Call := ⟨⟨who, later, 0⟩, .requestStrikeReset⟩
      let reset : Call := ⟨⟨who, ready, 0⟩, .executeStrikeReset⟩
      have hreset : InOrder (before ++ .request strike :: ([.request ask] ++ [.request reset])) := by
        have hasked : InOrder (before ++ [.request strike, .request ask]) :=
          hordered.append_request hlater
        rw [← List.singleton_append, ← List.append_assoc] at hasked
        have hreset : InOrder (before ++ [.request strike] ++ [.request ask, .request reset]) :=
          hasked.append_request hlast
        rwa [List.append_assoc] at hreset
      refine hwaits [.request ask] reset hreset rfl ?_
      rw [hafter]
      exact hrevokes.grant_reset_of_ask hguardian hready
  · rintro ⟨hpending, hsteady⟩ between reset hordered hrequest hgrant
    rw [hafter] at hgrant
    have hlater {next : Call} (hnext : next ∈ between.filterMap Event.call? ++ [reset]) :
        strike.ctx.now ≤ next.ctx.now := by
      refine hordered.le_of_mem_later ?_
      rw [List.filterMap_append]
      exact hnext
    obtain ⟨asked, hready, hold | ⟨call, hcall, rfl⟩⟩ := hrevokes.reset_cases hrequest hgrant
    · rcases hpending asked hold with hwaits | hover
      · exact Timestamp.le_trans hwaits hready
      · exact Timestamp.le_trans hover (hlater (List.mem_append_right _ List.mem_cons_self))
    · have hreset : call.ctx.now ≤ reset.ctx.now := by
        rw [← List.cons_append, ← List.append_assoc] at hordered
        refine hordered.le_of_append_request ?_
        rw [List.filterMap_append]
        exact List.mem_append_right _ (List.mem_cons_of_mem _ hcall)
      rcases hsteady _ (hlater (List.mem_append_left _ hcall)) with hover | hwaits
      · exact Timestamp.le_trans hover hreset
      · exact Timestamp.le_trans hwaits hready

/-- The guardian asks for a reset before there is any strike, and objects to a root later. -/
def forestalledRun : List (Event PoolToken) :=
  [.request ⟨⟨⟨2⟩, .epoch, 1⟩, .requestStrikeReset⟩,
   .request ⟨⟨⟨1⟩, Timestamp.epoch.after (.ofSeconds 3600), 1⟩, .advancePeriod⟩,
   .request ⟨⟨⟨1⟩, Timestamp.epoch.after (.ofSeconds 172800), 1⟩, .postCommitment ⟨0⟩ 7⟩,
   .request ⟨⟨⟨2⟩, Timestamp.epoch.after (.ofSeconds 176400), 1⟩, .disputeCommitment ⟨0⟩⟩]

/-- The authority replaces the root, and the strike for it revokes the authority. -/
def forestalledStrike : Call :=
  ⟨⟨⟨1⟩, Timestamp.epoch.after (.ofSeconds 219600), 1⟩, .replaceCommitment ⟨0⟩ 8⟩

/-- The guardian goes on with the reset at the same time. -/
def forestalledReset : Call :=
  ⟨⟨⟨2⟩, Timestamp.epoch.after (.ofSeconds 219600), 1⟩, .executeStrikeReset⟩

/-- The request is made more than a reset delay before the strike, so a reset need not wait for the
strike. -/
theorem strikeReset_waits_iff_of_forestalled : ∃ l : Ledger PoolToken,
    Ledger.start { recovery := { maxStrikes := 1 } } ⟨1⟩ (some ⟨2⟩) .empty .epoch = .ok l ∧
      (l.after forestalledRun).Revokes forestalledStrike ∧
      InOrder (forestalledRun ++ [.request forestalledStrike]) ∧
      ((∀ between reset,
          InOrder (forestalledRun ++ .request forestalledStrike :: (between ++ [.request reset])) →
          reset.request = .executeStrikeReset →
          (l.after (forestalledRun ++ .request forestalledStrike :: between)).grant reset =
            [reset] →
            forestalledStrike.ctx.now.after (.ofSeconds 172800) ≤ reset.ctx.now) ↔
        (∀ asked, (l.after forestalledRun).governance.strikeResetRequestedAt = some asked →
          forestalledStrike.ctx.now.after (.ofSeconds 172800) ≤ asked.after (.ofSeconds 172800) ∨
            forestalledStrike.ctx.now.after (.ofSeconds 172800) ≤ forestalledStrike.ctx.now) ∧
        forestalledStrike.ctx.now.Steady (.ofSeconds 172800)) := by
  obtain ⟨l, hstart, hrevokes⟩ : ∃ l : Ledger PoolToken,
      Ledger.start { recovery := { maxStrikes := 1 } } ⟨1⟩ (some ⟨2⟩) .empty .epoch = .ok l ∧
        (l.after forestalledRun).Revokes forestalledStrike :=
    ⟨_, rfl, ⟨⟨0⟩, 8, rfl⟩, by rfl, by decide +kernel⟩
  have hordered : InOrder (forestalledRun ++ [.request forestalledStrike]) := by decide +kernel
  exact ⟨l, hstart, hrevokes, hordered, strikeReset_waits_iff hstart hrevokes hordered⟩

/-- The authority is revoked and restored at one time, since the reset was asked for in advance. -/
theorem reset_of_forestalled : ∃ l : Ledger PoolToken,
    Ledger.start { recovery := { maxStrikes := 1 } } ⟨1⟩ (some ⟨2⟩) .empty .epoch = .ok l ∧
      InOrder (forestalledRun ++ [.request forestalledStrike, .request forestalledReset]) ∧
      (l.after forestalledRun).governance.isRevoked = false ∧
      (l.after forestalledRun).Revokes forestalledStrike ∧
      (l.after (forestalledRun ++ [.request forestalledStrike])).grant forestalledReset =
        [forestalledReset] ∧
      (l.after (forestalledRun ++ [.request forestalledStrike,
        .request forestalledReset])).governance.isRevoked = false ∧
      ¬ forestalledStrike.ctx.now.after l.governance.policy.strikeResetDelay ≤
        forestalledReset.ctx.now :=
  ⟨_, rfl, by decide +kernel, by decide +kernel, ⟨⟨⟨0⟩, 8, rfl⟩, by rfl, by decide +kernel⟩, by rfl,
    by decide +kernel, by decide +kernel⟩

end Ledger

end Settlement
