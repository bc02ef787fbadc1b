import Settlement.Ledger.Request
import Settlement.Proofs.Result

namespace Settlement

/-- How a request changes the roles, if that is what it does. -/
def Request.change? (ctx : CallContext) : Request → Option (Governance → Result Governance)
  | .setGuardian guardian => some (·.setGuardian ctx guardian)
  | .proposeAuthority address => some (·.proposeAuthority ctx address)
  | .acceptAuthority => some (·.acceptAuthority ctx)
  | .requestStrikeReset => some (·.requestStrikeReset ctx)
  | .executeStrikeReset => some (·.executeStrikeReset ctx)
  | .designateRecovery address => some (·.designateRecovery ctx address)
  | .claimRecovery => some (·.claimRecovery ctx)
  | _ => none

namespace Governance

variable {g g' : Governance} {ctx : CallContext} {caller : Address} {u : Unit}

/-- An authority is revoked when it has as many strikes as the policy allows at most. -/
theorem isRevoked_iff : g.isRevoked = true ↔ g.policy.maxStrikes ≤ g.strikes :=
  decide_eq_true_iff

theorem isRevoked_eq_false_iff : g.isRevoked = false ↔ g.strikes < g.policy.maxStrikes := by
  rw [isRevoked, decide_eq_false_iff_not, Word.le_def, Word.lt_def, Nat.not_le]

/-- What only the authority may do is done by the one in office, while it is not revoked. -/
theorem checkAuthority_eq_ok_iff :
    g.checkAuthority caller = .ok u ↔ caller = g.authority ∧ g.isRevoked = false := by
  unfold checkAuthority
  rw [Result.bind_eq_ok_iff]
  simp only [require_eq_ok_iff, Bool.not_eq_true, exists_const]

theorem checkAuthority_of_isRevoked (h : g.isRevoked = true) (caller : Address) :
    g.checkAuthority caller =
      .error (if caller = g.authority then .authorityRevoked g.strikes else .notAuthority caller) := by
  unfold checkAuthority
  by_cases hcaller : caller = g.authority
  · simp [require, hcaller, h]
  · simp [require, hcaller]

theorem checkGuardian_eq_ok_iff : g.checkGuardian caller = .ok u ↔ g.guardian = some caller :=
  require_eq_ok_iff

/-- The authority is silent when a window has passed since its last action, for which the time when
the window ends is computed. -/
theorem checkInactive_eq_ok_iff :
    g.checkInactive ctx = .ok u ↔ g.lastAuthorityAction.after g.policy.livenessWindow ≤ ctx.now :=
  require_eq_ok_iff

/-- The roles after a granted change of them. The authority appoints a guardian and offers its role,
the guardian sees to strikes and names a successor of a silent authority, and only who was named or
offered the role takes it. -/
inductive Changed (g : Governance) (ctx : CallContext) : Request → Governance → Prop
  | guarded {guardian : Address} (hauthority : g.checkAuthority ctx.caller = .ok ())
      (hsomebody : guardian.isZero = false) :
      Changed g ctx (.setGuardian guardian)
        (touch { g with guardian := some guardian, guardianEverConfigured := true } ctx.now)
  | offered {address : Address} (hauthority : g.checkAuthority ctx.caller = .ok ())
      (hsomebody : address.isZero = false) :
      Changed g ctx (.proposeAuthority address)
        (touch { g with pendingAuthority := some address } ctx.now)
  | accepted (hpending : g.pendingAuthority = some ctx.caller) :
      Changed g ctx .acceptAuthority
        (touch { g with authority := ctx.caller, pendingAuthority := none } ctx.now)
  | resetRequested (hguardian : g.guardian = some ctx.caller) :
      Changed g ctx .requestStrikeReset { g with strikeResetRequestedAt := some ctx.now }
  | strikesReset {requested : Timestamp} (hguardian : g.guardian = some ctx.caller)
      (hrequested : g.strikeResetRequestedAt = some requested)
      (hready : requested.after g.policy.strikeResetDelay ≤ ctx.now) :
      Changed g ctx .executeStrikeReset { g with strikes := 0, strikeResetRequestedAt := none }
  | designated {address : Address} (hguardian : g.guardian = some ctx.caller)
      (hsomebody : address.isZero = false)
      (hsilent : g.lastAuthorityAction.after g.policy.livenessWindow ≤ ctx.now) :
      Changed g ctx (.designateRecovery address) { g with recovery := some ⟨address, ctx.now⟩ }
  | recovered {named : RecoveryDesignation} (hnamed : g.recovery = some named)
      (hcaller : named.address = ctx.caller)
      (hsilent : g.lastAuthorityAction.after g.policy.livenessWindow ≤ ctx.now)
      (hready : named.designatedAt.after g.policy.livenessWindow ≤ ctx.now) :
      Changed g ctx .claimRecovery
        { g with
          authority := named.address
          pendingAuthority := none
          strikes := 0
          strikeResetRequestedAt := none
          recovery := none
          lastAuthorityAction := ctx.now }

section inversion

theorem changed_setGuardian {guardian : Address} (h : g.setGuardian ctx guardian = .ok g') :
    g.Changed ctx (.setGuardian guardian) g' := by
  obtain ⟨_, hauthority, h⟩ := Result.bind_eq_ok_iff.1 h
  obtain ⟨_, hsomebody, h⟩ := Result.bind_eq_ok_iff.1 h
  cases h
  exact .guarded hauthority (Bool.not_eq_true _ ▸ require_eq_ok_iff.1 hsomebody)

theorem changed_proposeAuthority {address : Address} (h : g.proposeAuthority ctx address = .ok g') :
    g.Changed ctx (.proposeAuthority address) g' := by
  obtain ⟨_, hauthority, h⟩ := Result.bind_eq_ok_iff.1 h
  obtain ⟨_, hsomebody, h⟩ := Result.bind_eq_ok_iff.1 h
  cases h
  exact .offered hauthority (Bool.not_eq_true _ ▸ require_eq_ok_iff.1 hsomebody)

theorem changed_acceptAuthority (h : g.acceptAuthority ctx = .ok g') :
    g.Changed ctx .acceptAuthority g' := by
  obtain ⟨_, hpending, h⟩ := Result.bind_eq_ok_iff.1 h
  cases h
  exact .accepted (require_eq_ok_iff.1 hpending)

theorem changed_requestStrikeReset (h : g.requestStrikeReset ctx = .ok g') :
    g.Changed ctx .requestStrikeReset g' := by
  obtain ⟨_, hguardian, h⟩ := Result.bind_eq_ok_iff.1 h
  cases h
  exact .resetRequested (checkGuardian_eq_ok_iff.1 hguardian)

theorem changed_executeStrikeReset (h : g.executeStrikeReset ctx = .ok g') :
    g.Changed ctx .executeStrikeReset g' := by
  obtain ⟨_, hguardian, h⟩ := Result.bind_eq_ok_iff.1 h
  obtain ⟨requested, hrequested, h⟩ := Result.bind_eq_ok_iff.1 h
  obtain ⟨_, hready, h⟩ := Result.bind_eq_ok_iff.1 h
  cases h
  exact .strikesReset (checkGuardian_eq_ok_iff.1 hguardian) (orRefuse_eq_ok_iff.1 hrequested)
    (require_eq_ok_iff.1 hready)

theorem changed_designateRecovery {address : Address}
    (h : g.designateRecovery ctx address = .ok g') :
    g.Changed ctx (.designateRecovery address) g' := by
  obtain ⟨_, hguardian, h⟩ := Result.bind_eq_ok_iff.1 h
  obtain ⟨_, hsomebody, h⟩ := Result.bind_eq_ok_iff.1 h
  obtain ⟨_, hsilent, h⟩ := Result.bind_eq_ok_iff.1 h
  cases h
  exact .designated (checkGuardian_eq_ok_iff.1 hguardian)
    (Bool.not_eq_true _ ▸ require_eq_ok_iff.1 hsomebody) (checkInactive_eq_ok_iff.1 hsilent)

theorem changed_claimRecovery (h : g.claimRecovery ctx = .ok g') :
    g.Changed ctx .claimRecovery g' := by
  obtain ⟨named, hnamed, h⟩ := Result.bind_eq_ok_iff.1 h
  obtain ⟨_, hsilent, h⟩ := Result.bind_eq_ok_iff.1 h
  obtain ⟨_, hready, h⟩ := Result.bind_eq_ok_iff.1 h
  cases h
  obtain ⟨hnamed, hcaller⟩ := Option.filter_eq_some_iff.1 (orRefuse_eq_ok_iff.1 hnamed)
  exact .recovered hnamed (of_decide_eq_true hcaller) (checkInactive_eq_ok_iff.1 hsilent)
    (require_eq_ok_iff.1 hready)

end inversion

theorem changed_of_change {request : Request} {change : Governance → Result Governance}
    (hchange : request.change? ctx = some change) (h : change g = .ok g') :
    g.Changed ctx request g' := by
  cases request with
  | setGuardian _ =>
    cases hchange
    exact changed_setGuardian h
  | proposeAuthority _ =>
    cases hchange
    exact changed_proposeAuthority h
  | acceptAuthority =>
    cases hchange
    exact changed_acceptAuthority h
  | requestStrikeReset =>
    cases hchange
    exact changed_requestStrikeReset h
  | executeStrikeReset =>
    cases hchange
    exact changed_executeStrikeReset h
  | designateRecovery _ =>
    cases hchange
    exact changed_designateRecovery h
  | claimRecovery =>
    cases hchange
    exact changed_claimRecovery h
  | _ => cases hchange

theorem Changed.policy_eq {request : Request} (h : g.Changed ctx request g') :
    g'.policy = g.policy := by
  cases h with
  | _ => rfl

end Governance

namespace HaltSwitch

variable {h h' : HaltSwitch} {g : Governance} {ctx : CallContext}

theorem halt_eq_ok (hhalt : h.halt ctx g = .ok h') :
    g.checkAuthority ctx.caller = .ok () ∧ h' = ⟨some (h.haltedAt.getD ctx.now)⟩ := by
  obtain ⟨_, hauthority, hhalt⟩ := Result.bind_eq_ok_iff.1 hhalt
  cases hhalt
  exact ⟨hauthority, rfl⟩

theorem unhalt_eq_ok (hunhalt : h.unhalt ctx g = .ok h') :
    h' = ⟨none⟩ ∧
      ((g.guardianEverConfigured = true ∧ g.guardian = some ctx.caller) ∨
        (g.guardianEverConfigured = false ∧ g.checkAuthority ctx.caller = .ok ())) := by
  unfold unhalt at hunhalt
  cases hever : g.guardianEverConfigured with
  | true =>
    rw [hever, if_pos rfl] at hunhalt
    obtain ⟨_, hguardian, hunhalt⟩ := Result.bind_eq_ok_iff.1 hunhalt
    cases hunhalt
    exact ⟨rfl, .inl ⟨rfl, Governance.checkGuardian_eq_ok_iff.1 hguardian⟩⟩
  | false =>
    rw [hever, if_neg Bool.false_ne_true] at hunhalt
    obtain ⟨_, hauthority, hunhalt⟩ := Result.bind_eq_ok_iff.1 hunhalt
    cases hunhalt
    exact ⟨rfl, .inr ⟨rfl, hauthority⟩⟩

theorem unhalt_of_guardian (hever : g.guardianEverConfigured = true)
    (hguardian : g.guardian = some ctx.caller) : h.unhalt ctx g = .ok ⟨none⟩ := by
  have hcheck : g.checkGuardian ctx.caller = .ok () := Governance.checkGuardian_eq_ok_iff.2 hguardian
  simp [unhalt, hever, hcheck, pure, Except.pure]

end HaltSwitch

end Settlement
