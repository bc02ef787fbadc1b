import Settlement.Proofs.Ledger.Halt
import Settlement.Proofs.Ledger.Recovery
import Settlement.Proofs.Ledger.Revocation

namespace Settlement

theorem Address.ne_zero_of_isZero {a : Address} (h : a.isZero = false) : a ≠ .zero := by
  rintro rfl
  cases h

/-- A granted request of this kind makes, takes or voids an offer of the role of the authority. -/
def Request.settlesOffer : Request → Bool
  | .proposeAuthority _ => true
  | .acceptAuthority => true
  | .claimRecovery => true
  | _ => false

/-- The number of strikes after a granted request. Strikes are counted by replacements alone. -/
def Request.strikes (before : Nat) : Request → Nat
  | .replaceCommitment _ _ => before + 1
  | .executeStrikeReset => 0
  | .claimRecovery => 0
  | _ => before

namespace Governance

variable {g g' : Governance} {ctx : CallContext} {request : Request}

/-- What every reachable state says about its roles. Nobody holds or is promised a role under the
address that belongs to nobody, and a guardian is followed by guardians only. -/
structure WellFormed (g : Governance) : Prop where
  authority : g.authority ≠ .zero
  pending : g.pendingAuthority ≠ some .zero
  guardian : g.guardian ≠ some .zero
  recovery : g.recovery.map RecoveryDesignation.address ≠ some .zero
  guarded : g.guardianEverConfigured = true ↔ ∃ who, g.guardian = some who
  /-- A successor is named when the authority has been silent for the liveness window. -/
  silent : ∀ named, g.recovery = some named →
    g.lastAuthorityAction.after g.policy.livenessWindow ≤ named.designatedAt

theorem WellFormed.touch {now : Timestamp} (hauthority : g.authority ≠ .zero)
    (hpending : g.pendingAuthority ≠ some .zero) (hguardian : g.guardian ≠ some .zero)
    (hguarded : g.guardianEverConfigured = true ↔ ∃ who, g.guardian = some who) :
    (g.touch now).WellFormed where
  authority := hauthority
  pending := hpending
  guardian := hguardian
  recovery := by simp [Governance.touch]
  guarded := hguarded
  silent _ h := by cases h

theorem WellFormed.moved (h : g.WellFormed) (hmoved : g.Moved ctx request g') : g'.WellFormed := by
  cases hmoved with
  | kept => exact h
  | acted => exact .touch h.authority h.pending h.guardian h.guarded
  | struck =>
    have htouched : (g.touch ctx.now).WellFormed :=
      .touch h.authority h.pending h.guardian h.guarded
    exact ⟨htouched.authority, htouched.pending, htouched.guardian, htouched.recovery,
      htouched.guarded, htouched.silent⟩
  | changed hchanged =>
    cases hchanged with
    | @guarded guardian _ hsomebody =>
      refine .touch h.authority h.pending ?_ ⟨fun _ => ⟨guardian, rfl⟩, fun _ => rfl⟩
      exact fun heq => Address.ne_zero_of_isZero hsomebody (Option.some.inj heq)
    | offered _ hsomebody =>
      refine .touch h.authority ?_ h.guardian h.guarded
      exact fun heq => Address.ne_zero_of_isZero hsomebody (Option.some.inj heq)
    | accepted hpending =>
      refine .touch (fun heq => h.pending ?_) (by simp) h.guardian h.guarded
      rw [hpending]
      exact congrArg some heq
    | resetRequested | strikesReset =>
      exact ⟨h.authority, h.pending, h.guardian, h.recovery, h.guarded, h.silent⟩
    | designated _ hsomebody hsilent =>
      refine ⟨h.authority, h.pending, h.guardian, ?_, h.guarded, ?_⟩
      · exact fun heq => Address.ne_zero_of_isZero hsomebody (Option.some.inj heq)
      · rintro _ ⟨⟩
        exact hsilent
    | @recovered named hnamed =>
      refine ⟨fun heq => h.recovery ?_, by simp, h.guardian, by simp, h.guarded, fun _ h => ?_⟩
      · rw [hnamed]
        exact congrArg some heq
      · cases h

/-- The role of the authority stays where it is, or is accepted, or is claimed by a successor. -/
theorem Moved.authority_cases (h : g.Moved ctx request g') :
    g'.authority = g.authority ∨
      (request = .acceptAuthority ∧ g.pendingAuthority = some ctx.caller ∧
        g'.authority = ctx.caller) ∨
      (request = .claimRecovery ∧ g'.authority = ctx.caller ∧
        ∃ named, g.recovery = some named ∧ named.address = ctx.caller) := by
  cases h with
  | kept | acted | struck => exact .inl rfl
  | changed hchanged =>
    cases hchanged with
    | accepted hpending => exact .inr (.inl ⟨rfl, hpending, rfl⟩)
    | recovered hnamed hcaller => exact .inr (.inr ⟨rfl, hcaller, _, hnamed, hcaller⟩)
    | _ => exact .inl rfl

theorem Moved.pending_cases (h : g.Moved ctx request g') {address : Address}
    (hpending : g'.pendingAuthority = some address) :
    (request.settlesOffer = false ∧ g.pendingAuthority = some address) ∨
      (request = .proposeAuthority address ∧ g.checkAuthority ctx.caller = .ok ()) := by
  cases h with
  | kept _ hnone | acted _ _ hnone =>
    refine .inl ⟨?_, hpending⟩
    cases request with
    | proposeAuthority _ | acceptAuthority | claimRecovery => cases hnone
    | _ => rfl
  | struck => exact .inl ⟨rfl, hpending⟩
  | changed hchanged =>
    cases hchanged with
    | offered hauthority =>
      cases hpending
      exact .inr ⟨rfl, hauthority⟩
    | accepted | recovered => cases hpending
    | _ => exact .inl ⟨rfl, hpending⟩

theorem Moved.recovery_cases (h : g.Moved ctx request g') {named : RecoveryDesignation}
    (hnamed : g'.recovery = some named) :
    (request.designates = false ∧ g.recovery = some named) ∨
      (request = .designateRecovery named.address ∧ g.guardian = some ctx.caller ∧
        g.lastAuthorityAction.after g.policy.livenessWindow ≤ ctx.now) := by
  cases h with
  | kept _ hnone =>
    refine .inl ⟨?_, hnamed⟩
    cases request with
    | designateRecovery _ => cases hnone
    | _ => rfl
  | acted | struck => cases hnamed
  | changed hchanged =>
    cases hchanged with
    | guarded | offered | accepted | recovered => cases hnamed
    | resetRequested | strikesReset => exact .inl ⟨rfl, hnamed⟩
    | designated hguardian _ hsilent =>
      cases hnamed
      exact .inr ⟨rfl, hguardian, hsilent⟩

theorem Moved.val_strikes (h : g.Moved ctx request g') :
    g'.strikes.val = request.strikes g.strikes.val := by
  cases h with
  | kept hfree hnone =>
    cases request with
    | executeStrikeReset | claimRecovery => cases hnone
    | replaceCommitment _ _ => cases hfree
    | _ => rfl
  | acted _ _ hnone hother =>
    cases request with
    | executeStrikeReset | claimRecovery => cases hnone
    | replaceCommitment period root => exact absurd rfl (hother period root)
    | _ => rfl
  | struck hauthority =>
    obtain ⟨-, hunrevoked⟩ := checkAuthority_eq_ok_iff.1 hauthority
    have hlive : (g.touch ctx.now).isRevoked = false := hunrevoked
    exact val_strikes_strike hlive
  | changed hchanged =>
    cases hchanged with
    | _ => rfl

end Governance

namespace Ledger

variable {τ : Type} {l : Ledger τ} {events : List (Event τ)} {policy : ProtocolPolicy}
  {authority : Address} {guardian : Option Address} {token : τ} {now : Timestamp}

theorem wellFormed_start (hstart : Ledger.start policy authority guardian token now = .ok l) :
    l.governance.WellFormed := by
  have hgovernance := governance_of_start hstart
  obtain ⟨_, -, hstart⟩ := Result.bind_eq_ok_iff.1 hstart
  obtain ⟨_, hroles, -⟩ := Result.bind_eq_ok_iff.1 hstart
  obtain ⟨_, hauthority, hroles⟩ := Result.bind_eq_ok_iff.1 hroles
  obtain ⟨_, hguardian, -⟩ := Result.bind_eq_ok_iff.1 hroles
  rw [require_eq_ok_iff, Bool.not_eq_true] at hauthority
  rw [hgovernance]
  exact ⟨Address.ne_zero_of_isZero hauthority, by simp, require_eq_ok_iff.1 hguardian, by simp,
    Option.isSome_iff_exists, fun _ h => by cases h⟩

variable [PayoutToken τ]

/-- The authority of the moment, which is not revoked, offers its role. -/
structure Offered (l : Ledger τ) (offer : Call) (address : Address) : Prop where
  request : offer.request = .proposeAuthority address
  granted : l.grant offer = [offer]
  authority : offer.ctx.caller = l.governance.authority
  unrevoked : l.governance.isRevoked = false

/-- The granted requests of a run that make, take or void an offer of the role of the authority. -/
def offers (l : Ledger τ) (events : List (Event τ)) : List Call :=
  l.gather (grantOf fun _ => Request.settlesOffer) events

/-- A pending offer is the last one that was made, and nobody has taken the role since. -/
theorem offered_of_pending (hnone : l.governance.pendingAuthority = none) {address : Address}
    (h : (l.after events).governance.pendingAuthority = some address) :
    ∃ first offer second, events = first ++ .request offer :: second ∧
      Offered (l.after first) offer address ∧ ((l.after first).step offer).offers second = [] := by
  have hstep (l : Ledger τ) (call : Call) (address : Address)
      (h : (l.step call).governance.pendingAuthority = some address) :
      Offered l call address ∨
        (l.grantOf (fun _ => Request.settlesOffer) call = [] ∧
          l.governance.pendingAuthority = some address) := by
    rcases roles l call with ⟨hrefused, hsame⟩ | ⟨hgrant, hmoved⟩
    · rw [hsame.governance] at h
      exact .inr ⟨grantOf_of_refused hrefused, h⟩
    · rcases hmoved.governance.pending_cases h with ⟨hkind, hbefore⟩ | ⟨hrequest, hauthority⟩
      · exact .inr ⟨grantOf_of_not_kind hkind, hbefore⟩
      · obtain ⟨hcaller, hunrevoked⟩ := Governance.checkAuthority_eq_ok_iff.1 hauthority
        exact .inl ⟨hrequest, hgrant, hcaller, hunrevoked⟩
  exact exists_last_of_after (v := fun l => l.governance.pendingAuthority) hstep (fun _ _ => rfl)
    hnone h

theorem last_designated_of_recovery (hnone : l.governance.recovery = none)
    {named : RecoveryDesignation} (h : (l.after events).governance.recovery = some named) :
    ∃ first designation second, events = first ++ .request designation :: second ∧
      Designated (l.after first) designation named.address ∧
      ((l.after first).step designation).designations second = [] := by
  have hstep (l : Ledger τ) (call : Call) (named : RecoveryDesignation)
      (h : (l.step call).governance.recovery = some named) :
      Designated l call named.address ∨
        (l.grantOf (fun _ => Request.designates) call = [] ∧
          l.governance.recovery = some named) := by
    rcases roles l call with ⟨hrefused, hsame⟩ | ⟨hgrant, hmoved⟩
    · rw [hsame.governance] at h
      exact .inr ⟨grantOf_of_refused hrefused, h⟩
    · rcases hmoved.governance.recovery_cases h with
        ⟨hkind, hbefore⟩ | ⟨hrequest, hguardian, hsilent⟩
      · exact .inr ⟨grantOf_of_not_kind hkind, hbefore⟩
      · exact .inl ⟨hrequest, hgrant, hguardian, hsilent⟩
  exact exists_last_of_after (v := fun l => l.governance.recovery) hstep (fun _ _ => rfl) hnone h

/-- After a run the caller takes the role of the authority, as the address to which it was offered
last, or as the successor that was named last. -/
inductive TakesOver (l : Ledger τ) (before : List (Event τ)) (call : Call) : Prop
  | accepted {first second : List (Event τ)} {offer : Call}
      (hrequest : call.request = .acceptAuthority)
      (hbefore : before = first ++ .request offer :: second)
      (hoffered : Offered (l.after first) offer call.ctx.caller)
      (hlast : ((l.after first).step offer).offers second = [])
  | recovered {first second : List (Event τ)} {designation : Call}
      (hrequest : call.request = .claimRecovery)
      (hbefore : before = first ++ .request designation :: second)
      (hdesignated : Designated (l.after first) designation call.ctx.caller)
      (hlast : ((l.after first).step designation).designations second = [])

/-- The role of the authority passes in two ways: it is accepted by whoever the authority offered it
to last, or claimed by whoever the guardian named last. -/
theorem authority_step_cases (hpending : l.governance.pendingAuthority = none)
    (hrecovery : l.governance.recovery = none) (before : List (Event τ)) (call : Call) :
    ((l.after before).step call).governance.authority = (l.after before).governance.authority ∨
      ((l.after before).grant call = [call] ∧
        ((l.after before).step call).governance.authority = call.ctx.caller ∧
        TakesOver l before call) := by
  rcases roles (l.after before) call with ⟨-, hsame⟩ | ⟨hgrant, hmoved⟩
  · exact .inl (congrArg Governance.authority hsame.governance)
  · rcases hmoved.governance.authority_cases with
      hkept | ⟨hrequest, hoffer, htaken⟩ | ⟨hrequest, htaken, named, hnamed, hcaller⟩
    · exact .inl hkept
    · obtain ⟨first, offer, second, hsplit, hoffered, hlast⟩ := offered_of_pending hpending hoffer
      exact .inr ⟨hgrant, htaken, .accepted hrequest hsplit hoffered hlast⟩
    · obtain ⟨first, designation, second, hsplit, hdesignated, hlast⟩ :=
        last_designated_of_recovery hrecovery hnamed
      rw [hcaller] at hdesignated
      exact .inr ⟨hgrant, htaken, .recovered hrequest hsplit hdesignated hlast⟩

theorem val_strikes_step (l : Ledger τ) (call : Call) :
    (l.step call).governance.strikes.val =
      (l.grant call).foldl (fun count granted => granted.request.strikes count)
        l.governance.strikes.val := by
  rcases roles l call with ⟨hrefused, hsame⟩ | ⟨hgrant, hmoved⟩
  · rw [hrefused, hsame.governance]
    rfl
  · rw [hgrant]
    exact hmoved.governance.val_strikes

theorem wellFormed_after (hstart : Ledger.start policy authority guardian token now = .ok l)
    (events : List (Event τ)) : (l.after events).governance.WellFormed :=
  governance_after_of_step (P := Governance.WellFormed) (fun h hmoved => h.moved hmoved)
    (wellFormed_start hstart) events

/-- The roles of a reachable state are well-formed: nobody holds or is promised one under the zero
address, there is a guardian exactly if there has ever been one, and a successor was named after a
liveness window without an action of the authority. A guardian is replaced but never removed. The
role of the authority passes only to whom the unrevoked authority had offered it last, or to whom
the guardian had named last; and strikes change by one with each replacement that is granted, or to
zero when they are reset or a successor takes over. -/
theorem roles_pass_in_order
    (hstart : Ledger.start policy authority guardian token now = .ok l)
    (before : List (Event τ)) :
    (l.after before).governance.WellFormed ∧
      ((l.after before).governance.guardian ≠ none →
        ∀ later, (l.after (before ++ later)).governance.guardian ≠ none) ∧
      ∀ call,
        (((l.after before).step call).governance.authority ≠ (l.after before).governance.authority →
          (l.after before).grant call = [call] ∧
          ((l.after before).step call).governance.authority = call.ctx.caller ∧
          TakesOver l before call) ∧
        ((l.after before).step call).governance.strikes.val =
          ((l.after before).grant call).foldl (fun count granted => granted.request.strikes count)
            (l.after before).governance.strikes.val := by
  have hwell := wellFormed_after hstart before
  refine ⟨hwell, fun hguardian later => ?_, fun call => ⟨fun hmoved => ?_, val_strikes_step _ _⟩⟩
  · have hever := guardianEverConfigured_after
      (hwell.guarded.2 (Option.ne_none_iff_exists'.1 hguardian)) later
    rw [← after_append] at hever
    exact Option.ne_none_iff_exists'.2 ((wellFormed_after hstart _).guarded.1 hever)
  · have hgovernance := governance_of_start hstart
    have hcases := authority_step_cases (by rw [hgovernance]) (by rw [hgovernance]) before call
    exact hcases.resolve_left hmoved

/-- The address to which the role was offered before the strike accepts it. -/
def acceptance : Call :=
  ⟨⟨⟨3⟩, Timestamp.epoch.after (.ofSeconds 50400), 1⟩, .acceptAuthority⟩

/-- The role is accepted after a strike, which is not cleared by it. In the other run the guardian
names a successor, who takes over. -/
theorem roles_pass_in_order_of_acceptance : ∃ l : Ledger PoolToken,
    Ledger.start {} ⟨1⟩ (some ⟨2⟩) .empty .epoch = .ok l ∧
      (l.after struckRun).governance.WellFormed ∧
      (l.after struckRun).governance.strikes = 1 ∧
      ((l.after struckRun).step acceptance).governance.strikes = 1 ∧
      TakesOver l struckRun acceptance ∧
      (l.after successionRun).governance.recovery.isSome = true ∧
      (l.after successionRun).governance.WellFormed ∧ TakesOver l successionRun takeover := by
  obtain ⟨l, hstart, hstruck, hmoved, hgrant, hnamed, hrecovered⟩ : ∃ l : Ledger PoolToken,
      Ledger.start {} ⟨1⟩ (some ⟨2⟩) .empty .epoch = .ok l ∧
        (l.after struckRun).governance.strikes = 1 ∧
        ((l.after struckRun).step acceptance).governance.authority ≠
          (l.after struckRun).governance.authority ∧
        (l.after struckRun).grant acceptance = [acceptance] ∧
        (l.after successionRun).governance.recovery.isSome = true ∧
        ((l.after successionRun).step takeover).governance.authority ≠
          (l.after successionRun).governance.authority :=
    ⟨_, rfl, by decide +kernel, by decide +kernel, by rfl, by decide +kernel, by decide +kernel⟩
  obtain ⟨hwell, -, hpasses⟩ := roles_pass_in_order hstart struckRun
  obtain ⟨hwell', -, hpasses'⟩ := roles_pass_in_order hstart successionRun
  obtain ⟨hauthority, hstrikes⟩ := hpasses acceptance
  rw [hgrant, hstruck] at hstrikes
  exact ⟨l, hstart, hwell, hstruck, Word.ext hstrikes, (hauthority hmoved).2.2, hnamed, hwell',
    ((hpasses' takeover).1 hrecovered).2.2⟩

end Ledger

end Settlement
