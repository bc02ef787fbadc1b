import Settlement.Proofs.Ledger.Posting

namespace Settlement

/-- The request is granted to the authority alone. To lift the halt is so as long as there has never
been a guardian. -/
def Governance.reserves (g : Governance) : Request → Bool
  | .advancePeriod => true
  | .setFeeSchedule _ => true
  | .deposit _ _ => true
  | .postCommitment _ _ => true
  | .replaceCommitment _ _ => true
  | .sweepPeriod _ _ => true
  | .halt => true
  | .unhalt => !g.guardianEverConfigured
  | .setGuardian _ => true
  | .proposeAuthority _ => true
  | _ => false

/-- The roles after a granted request. When a request that is reserved to the authority is granted,
it shows that the authority is active. The other requests leave the roles alone, but for the
acceptance of an offered role, for what the guardian does about strikes and successors, and for a
successor who takes over. -/
inductive Governance.Moved (g : Governance) (ctx : CallContext) : Request → Governance → Prop
  | kept {request : Request} (hfree : g.reserves request = false)
      (hnone : request.change? ctx = none) : Moved g ctx request g
  | acted {request : Request} (hauthority : g.checkAuthority ctx.caller = .ok ())
      (hreserved : g.reserves request = true) (hnone : request.change? ctx = none)
      (hother : ∀ period root, request ≠ .replaceCommitment period root) :
      Moved g ctx request (g.touch ctx.now)
  | struck {period : PeriodId} {root : Digest} (hauthority : g.checkAuthority ctx.caller = .ok ()) :
      Moved g ctx (.replaceCommitment period root) (g.touch ctx.now).strike
  | changed {request : Request} {g' : Governance} (hchanged : g.Changed ctx request g') :
      Moved g ctx request g'

theorem Governance.Moved.policy_eq {g g' : Governance} {ctx : CallContext} {request : Request}
    (h : g.Moved ctx request g') : g'.policy = g.policy := by
  cases h with
  | changed hchanged => exact hchanged.policy_eq
  | _ => rfl

/-- The halt after a granted request. It is lifted by the guardian if there ever was one, and by the
authority otherwise. -/
inductive HaltSwitch.Moved (h : HaltSwitch) (g : Governance) (ctx : CallContext) :
    Request → HaltSwitch → Prop
  | kept {request : Request} (hother : request ≠ .unhalt) : Moved h g ctx request h
  | raised : Moved h g ctx .halt ⟨some (h.haltedAt.getD ctx.now)⟩
  | lifted (hallowed : (g.guardianEverConfigured = true ∧ g.guardian = some ctx.caller) ∨
      (g.guardianEverConfigured = false ∧ g.checkAuthority ctx.caller = .ok ())) :
      Moved h g ctx .unhalt ⟨none⟩

namespace Ledger

variable {τ : Type} {l l' : Ledger τ} {ctx : CallContext} {request : Request}

theorem governance_of_start {policy : ProtocolPolicy} {authority : Address}
    {guardian : Option Address} {token : τ} {now : Timestamp}
    (hstart : Ledger.start policy authority guardian token now = .ok l) :
    l.governance = ⟨authority, none, guardian, guardian.isSome, 0, none, now, none,
      policy.recovery⟩ := by
  obtain ⟨_, -, hstart⟩ := Result.bind_eq_ok_iff.1 hstart
  obtain ⟨governance, hgovernance, hstart⟩ := Result.bind_eq_ok_iff.1 hstart
  obtain ⟨era, -, hstart⟩ := Result.bind_eq_ok_iff.1 hstart
  obtain ⟨_, -, hgovernance⟩ := Result.bind_eq_ok_iff.1 hgovernance
  obtain ⟨_, -, hgovernance⟩ := Result.bind_eq_ok_iff.1 hgovernance
  cases hgovernance
  cases hstart
  rfl

theorem checkAuthority_of_checkOperator (h : l.checkOperator ctx.caller = .ok ()) :
    l.governance.checkAuthority ctx.caller = .ok () := by
  obtain ⟨_, hauthority, -⟩ := Result.bind_eq_ok_iff.1 h
  exact hauthority

theorem checkAuthority_of_checkDeposit {period : PeriodId} {amount : Amount}
    (h : l.checkDeposit ctx period amount = .ok ()) :
    l.governance.checkAuthority ctx.caller = .ok () := by
  obtain ⟨_, hoperator, -⟩ := Result.bind_eq_ok_iff.1 h
  exact checkAuthority_of_checkOperator hoperator

theorem checkAuthority_of_checkSweep {period : PeriodId} {treasury : Address}
    (h : l.checkSweep ctx period treasury = .ok ()) :
    l.governance.checkAuthority ctx.caller = .ok () := by
  obtain ⟨_, hoperator, -⟩ := Result.bind_eq_ok_iff.1 h
  exact checkAuthority_of_checkOperator hoperator

section refusal

variable {e : Error}

private theorem commitIf_error {α : Type} :
    l.commitIf (.error e : Result (α × Ledger τ)) = (.error e, l) := rfl

private theorem map_error {α β : Type} {f : α → β} :
    Outcome.map f (.error e, l) = (.error e, l) := rfl

/-- A reserved request by somebody who is not the authority, or by a revoked authority, is refused
before anything else is looked at. -/
theorem handle_of_reserves [PayoutToken τ] (hreserved : l.governance.reserves request = true)
    (hrefused : l.governance.checkAuthority ctx.caller = .error e) :
    l.handle ctx request = (.error e, l) := by
  have hoperator : l.checkOperator ctx.caller = .error e := by
    rw [checkOperator, hrefused]
    rfl
  cases request with
  | advancePeriod => simp [handle, advancePeriod, hoperator, commitIf_error, map_error]
  | setFeeSchedule _ =>
    simp [handle, handle.done, setFeeSchedule, hrefused, commitIf_error, map_error]
  | deposit _ _ => simp [handle, deposit, checkDeposit, hoperator, map_error]
  | postCommitment _ _ =>
    simp [handle, handle.done, postCommitment, hoperator, commitIf_error, map_error]
  | replaceCommitment _ _ =>
    simp [handle, replaceCommitment, hoperator, commitIf_error, map_error]
  | sweepPeriod _ _ => simp [handle, sweepPeriod, checkSweep, hoperator, map_error]
  | halt =>
    simp [handle, handle.done, raiseHalt, HaltSwitch.halt, hrefused, commitIf_error, map_error]
  | unhalt =>
    have hnever : l.governance.guardianEverConfigured = false := by
      simpa [Governance.reserves] using hreserved
    simp [handle, handle.done, liftHalt, HaltSwitch.unhalt, hnever, hrefused, commitIf_error,
      map_error]
  | setGuardian _ =>
    simp [handle, handle.done, govern, Governance.setGuardian, hrefused, commitIf_error, map_error]
  | proposeAuthority _ =>
    simp [handle, handle.done, govern, Governance.proposeAuthority, hrefused, commitIf_error,
      map_error]
  | _ => simp [Governance.reserves] at hreserved

end refusal

/-- The roles and the halt after a granted request, together: the halt goes by the roles before
it. -/
structure RolesMoved (l : Ledger τ) (ctx : CallContext) (request : Request) (l' : Ledger τ) :
    Prop where
  governance : l.governance.Moved ctx request l'.governance
  halt : l.halt.Moved l.governance ctx request l'.halt

/-- The roles and the halt after a request that does nothing about them. -/
structure SameRoles (l l' : Ledger τ) : Prop where
  governance : l'.governance = l.governance
  halt : l'.halt = l.halt

theorem SameRoles.moved (h : SameRoles l l') (hfree : l.governance.reserves request = false)
    (hnone : request.change? ctx = none) (hother : request ≠ .unhalt) :
    RolesMoved l ctx request l' where
  governance := by
    rw [h.governance]
    exact .kept hfree hnone
  halt := by
    rw [h.halt]
    exact .kept hother

/-- A granted request that moves no money moves the roles in one of the ways listed. -/
theorem Controlled.roles {answer : Answer} (h : Controlled l ctx request answer l') :
    RolesMoved l ctx request l' := by
  cases h with
  | advanced hoperator | posted hoperator =>
    exact ⟨.acted (checkAuthority_of_checkOperator hoperator) rfl rfl (by simp), .kept (by simp)⟩
  | priced hauthority => exact ⟨.acted hauthority rfl rfl (by simp), .kept (by simp)⟩
  | replaced hoperator =>
    exact ⟨.struck (checkAuthority_of_checkOperator hoperator), .kept (by simp)⟩
  | counted | disputed | committed => exact ⟨.kept rfl rfl, .kept (by simp)⟩
  | halted hhalt =>
    obtain ⟨hauthority, rfl⟩ := HaltSwitch.halt_eq_ok hhalt
    exact ⟨.acted hauthority rfl rfl (by simp), .raised⟩
  | resumed hhalt =>
    obtain ⟨rfl, hallowed⟩ := HaltSwitch.unhalt_eq_ok hhalt
    rcases hallowed with ⟨hever, hguardian⟩ | ⟨hnever, hauthority⟩
    · rw [if_pos hever]
      exact ⟨.kept (by simp [Governance.reserves, hever]) rfl, .lifted (.inl ⟨hever, hguardian⟩)⟩
    · rw [if_neg (by simp [hnever])]
      exact ⟨.acted hauthority (by simp [Governance.reserves, hnever]) rfl (by simp),
        .lifted (.inr ⟨hnever, hauthority⟩)⟩
  | governed hchange hgovernance =>
    refine ⟨.changed (Governance.changed_of_change hchange hgovernance), .kept fun heq => ?_⟩
    subst heq
    cases hchange

variable [PayoutToken τ]

theorem PaidOut.roles {who : Address} {reserved : List Reservation} {total : Amount}
    {outcome : Outcome τ (TransferReceipt × List Amount)} (h : PaidOut l who reserved total outcome) :
    SameRoles l outcome.2 := by
  cases h with
  | _ => exact ⟨rfl, rfl⟩

theorem roles_of_ok {call : Call} {answer : Answer}
    (h : (l.handle call.ctx call.request).1 = .ok answer) :
    RolesMoved l call.ctx call.request (l.step call) := by
  obtain ⟨ctx, request⟩ := call
  have hhandled := handled l ctx request
  change RolesMoved l ctx request (l.handle ctx request).2
  generalize l.handle ctx request = outcome at h hhandled ⊢
  cases hhandled with
  | refused | uncollected | unrecorded | unpaid => cases h
  | quiet hcontrolled => exact hcontrolled.roles
  | deposited hcheck =>
    exact ⟨.acted (checkAuthority_of_checkDeposit hcheck) rfl rfl (by simp), .kept (by simp)⟩
  | emptied hcheck | swept hcheck =>
    exact ⟨.acted (checkAuthority_of_checkSweep hcheck) rfl rfl (by simp), .kept (by simp)⟩
  | claimed | batchClaimed => exact (paidOut ..).roles.moved rfl rfl (by simp)

theorem roles_of_error {call : Call} {e : Error}
    (h : (l.handle call.ctx call.request).1 = .error e) : SameRoles l (l.step call) := by
  obtain ⟨ctx, request⟩ := call
  have hhandled := handled l ctx request
  change SameRoles l (l.handle ctx request).2
  generalize l.handle ctx request = outcome at h hhandled ⊢
  cases hhandled with
  | quiet | deposited | emptied | swept => cases h
  | claimed | batchClaimed => exact (paidOut ..).roles
  | _ => exact ⟨rfl, rfl⟩

/-- The roles and the halt are moved by requests that are granted, and by no others. -/
theorem roles (l : Ledger τ) (call : Call) :
    (l.grant call = [] ∧ SameRoles l (l.step call)) ∨
      (l.grant call = [call] ∧ RolesMoved l call.ctx call.request (l.step call)) := by
  unfold grant
  cases hanswer : (l.handle call.ctx call.request).1 with
  | error e => exact .inl ⟨rfl, roles_of_error hanswer⟩
  | ok answer => exact .inr ⟨rfl, roles_of_ok hanswer⟩

theorem roles_of_grant {call : Call} (h : l.grant call = [call]) :
    RolesMoved l call.ctx call.request (l.step call) := by
  rcases roles l call with ⟨hrefused, -⟩ | ⟨-, hmoved⟩
  · rw [h] at hrefused
    cases hrefused
  · exact hmoved

/-- What granted requests of some kind keep of the roles holds after any events in which no others
are granted. -/
theorem governance_after_of_moved {P : Governance → Prop} {allowed : Request → Prop}
    (hstep : ∀ {g ctx request g'}, allowed request → P g → g.Moved ctx request g' → P g')
    (h : P l.governance) {events : List (Event τ)}
    (hallowed : ∀ call ∈ l.granted events, allowed call.request) :
    P (l.after events).governance := by
  refine after_of_granted (P := fun l => P l.governance) (A := fun call => allowed call.request)
    (fun l call hcall h => ?_) (fun _ _ h => h) h hallowed
  rcases roles l call with ⟨-, hsame⟩ | ⟨hgrant, hmoved⟩
  · rwa [hsame.governance]
  · rw [hgrant, List.forall_mem_singleton] at hcall
    exact hstep hcall h hmoved.governance

theorem governance_after_of_step {P : Governance → Prop}
    (hstep : ∀ {g ctx request g'}, P g → g.Moved ctx request g' → P g')
    (h : P l.governance) (events : List (Event τ)) : P (l.after events).governance := by
  have hstep' {g : Governance} {ctx : CallContext} {request : Request} {g' : Governance}
      (_ : True) (h : P g) (hmoved : g.Moved ctx request g') : P g' := hstep h hmoved
  exact governance_after_of_moved hstep' h fun _ _ => trivial

end Ledger

end Settlement
