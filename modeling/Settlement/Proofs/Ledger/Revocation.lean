import Settlement.Proofs.Ledger.Roles
import Settlement.Token.Pool

namespace Settlement

/-- A granted request of this kind clears the strikes. A role that is handed over keeps them. -/
def Request.clearsStrikes : Request → Bool
  | .executeStrikeReset => true
  | .claimRecovery => true
  | _ => false

namespace Governance

variable {g g' : Governance} {ctx : CallContext} {request : Request}

theorem val_strikes_strike (h : g.isRevoked = false) :
    g.strike.strikes.val = g.strikes.val + 1 := by
  rw [isRevoked_eq_false_iff, Word.lt_def] at h
  have hbound := g.policy.maxStrikes.isLt
  apply Word.val_satAdd_of_lt
  change g.strikes.val + 1 < 2 ^ 32
  omega

/-- Strikes come one at a time, and only to an authority that is not revoked yet, so there are never
more than the policy allows. -/
theorem Moved.strikes_le (h : g.Moved ctx request g') (hle : g.strikes ≤ g.policy.maxStrikes) :
    g'.strikes ≤ g'.policy.maxStrikes := by
  cases h with
  | kept | acted => exact hle
  | struck hauthority =>
    obtain ⟨-, hunrevoked⟩ := checkAuthority_eq_ok_iff.1 hauthority
    have hval : (g.touch ctx.now).strike.strikes.val = g.strikes.val + 1 :=
      val_strikes_strike hunrevoked
    rw [isRevoked_eq_false_iff, Word.lt_def] at hunrevoked
    rw [Word.le_def, hval]
    exact hunrevoked
  | changed hchanged =>
    cases hchanged with
    | strikesReset | recovered => exact Nat.zero_le _
    | _ => exact hle

/-- Once the strikes are too many, they stay what they are unless they are cleared: by the guardian,
or by a successor who takes over. -/
theorem Moved.strikes_eq (h : g.Moved ctx request g') (hrevoked : g.isRevoked = true)
    (hkeeps : request.clearsStrikes = false) : g'.strikes = g.strikes := by
  have hrefused {caller : Address} : g.checkAuthority caller ≠ .ok () := by
    rw [checkAuthority_of_isRevoked hrevoked]
    simp
  cases h with
  | kept => rfl
  | acted hauthority | struck hauthority => exact absurd hauthority hrefused
  | changed hchanged =>
    cases hchanged with
    | guarded hauthority | offered hauthority => exact absurd hauthority hrefused
    | strikesReset | recovered => cases hkeeps
    | _ => rfl

end Governance

namespace Ledger

variable {τ : Type} [PayoutToken τ] {l : Ledger τ} {policy : ProtocolPolicy}
  {authority : Address} {guardian : Option Address} {token : τ} {now : Timestamp}

theorem strikes_le_after (hstart : Ledger.start policy authority guardian token now = .ok l)
    (events : List (Event τ)) :
    (l.after events).governance.strikes ≤ (l.after events).governance.policy.maxStrikes := by
  apply governance_after_of_step (P := fun g => g.strikes ≤ g.policy.maxStrikes)
    (fun hle hmoved => hmoved.strikes_le hle)
  rw [governance_of_start hstart]
  exact Nat.zero_le _

/-- The authority has all the strikes that the policy allows, and is refused whatever is reserved to
it. So is everybody else. -/
structure Revoked (policy : ProtocolPolicy) (l : Ledger τ) : Prop where
  strikes : l.governance.strikes = policy.recovery.maxStrikes
  revoked : l.governance.isRevoked = true
  refused : ∀ ctx request, l.governance.reserves request = true →
    l.handle ctx request =
      (.error (if ctx.caller = l.governance.authority
        then .authorityRevoked policy.recovery.maxStrikes else .notAuthority ctx.caller), l)

theorem revoked_of_isRevoked (hrevoked : l.governance.isRevoked = true)
    (hstrikes : l.governance.strikes = policy.recovery.maxStrikes) : Revoked policy l where
  strikes := hstrikes
  revoked := hrevoked
  refused ctx request hreserved := by
    have hrefused := Governance.checkAuthority_of_isRevoked hrevoked ctx.caller
    rw [hstrikes] at hrefused
    exact handle_of_reserves hreserved hrefused

/-- A revoked authority stays so, and with it whoever takes over its role, until the strikes are
cleared. The induction is on the events. -/
theorem revoked_after (hrevoked : l.governance.isRevoked = true)
    (hstrikes : l.governance.strikes = policy.recovery.maxStrikes) {events : List (Event τ)}
    (hkeeps : ∀ call ∈ l.granted events, call.request.clearsStrikes = false) :
    Revoked policy (l.after events) := by
  have hstep {g g' : Governance} {ctx : CallContext} {request : Request}
      (hallowed : request.clearsStrikes = false)
      (h : g.isRevoked = true ∧ g.strikes = policy.recovery.maxStrikes)
      (hmoved : g.Moved ctx request g') :
      g'.isRevoked = true ∧ g'.strikes = policy.recovery.maxStrikes := by
    have hsame := hmoved.strikes_eq h.1 hallowed
    rw [Governance.isRevoked_iff, hmoved.policy_eq, hsame, ← Governance.isRevoked_iff]
    exact h
  obtain ⟨hrevoked, hstrikes⟩ := governance_after_of_moved hstep ⟨hrevoked, hstrikes⟩ hkeeps
  exact revoked_of_isRevoked hrevoked hstrikes

/-- Revocation lasts. Strikes never exceed the policy, and once they reach it the authority is
revoked, and refused everything that is reserved to it, after all events in which neither a reset of
the strikes nor the recovery by a successor is granted. -/
theorem revoked_until_cleared
    (hstart : Ledger.start policy authority guardian token now = .ok l)
    (before : List (Event τ)) :
    (l.after before).governance.strikes ≤ policy.recovery.maxStrikes ∧
      (policy.recovery.maxStrikes ≤ (l.after before).governance.strikes →
        ∀ later, (∀ call ∈ (l.after before).granted later, call.request.clearsStrikes = false) →
          Revoked policy (l.after (before ++ later))) := by
  have hpolicy : (l.after before).governance.policy = policy.recovery := by
    rw [(samePolicy_after l before).recovery, governance_of_start hstart]
  have hle := strikes_le_after hstart before
  rw [hpolicy] at hle
  refine ⟨hle, fun hreached later hkeeps => ?_⟩
  have hrevoked : (l.after before).governance.isRevoked = true := by
    rw [Governance.isRevoked_iff, hpolicy]
    exact hreached
  have hstrikes : (l.after before).governance.strikes = policy.recovery.maxStrikes :=
    Word.le_antisymm hle hreached
  rw [after_append]
  exact revoked_after hrevoked hstrikes hkeeps

/-- A root is posted, disputed and replaced, after the authority has offered its role. -/
def struckRun : List (Event PoolToken) :=
  [.request ⟨⟨⟨1⟩, .epoch, 1⟩, .proposeAuthority ⟨3⟩⟩,
   .request ⟨⟨⟨1⟩, Timestamp.epoch.after (.ofSeconds 3600), 1⟩, .advancePeriod⟩,
   .request ⟨⟨⟨1⟩, Timestamp.epoch.after (.ofSeconds 3600), 1⟩, .postCommitment ⟨0⟩ 7⟩,
   .request ⟨⟨⟨2⟩, Timestamp.epoch.after (.ofSeconds 7200), 1⟩, .disputeCommitment ⟨0⟩⟩,
   .request ⟨⟨⟨1⟩, Timestamp.epoch.after (.ofSeconds 50400), 1⟩, .replaceCommitment ⟨0⟩ 8⟩]

/-- The role is accepted, and the guardian asks for a reset and gets it too early. -/
def handoverRun : List (Event PoolToken) :=
  [.request ⟨⟨⟨3⟩, Timestamp.epoch.after (.ofSeconds 50400), 1⟩, .acceptAuthority⟩,
   .request ⟨⟨⟨2⟩, Timestamp.epoch.after (.ofSeconds 50400), 1⟩, .requestStrikeReset⟩,
   .request ⟨⟨⟨2⟩, Timestamp.epoch.after (.ofSeconds 60000), 1⟩, .executeStrikeReset⟩,
   .request ⟨⟨⟨3⟩, Timestamp.epoch.after (.ofSeconds 60000), 1⟩, .halt⟩]

/-- One strike revokes the authority here. Who accepts its role is revoked as well. -/
theorem revoked_until_cleared_of_handover : ∃ l : Ledger PoolToken,
    Ledger.start { recovery := { maxStrikes := 1 } } ⟨1⟩ (some ⟨2⟩) .empty .epoch = .ok l ∧
      (1 : Word 32) ≤ (l.after struckRun).governance.strikes ∧
      (∀ call ∈ (l.after struckRun).granted handoverRun, call.request.clearsStrikes = false) ∧
      (l.after (struckRun ++ handoverRun)).governance.authority = ⟨3⟩ ∧
      Revoked { recovery := { maxStrikes := 1 } } (l.after (struckRun ++ handoverRun)) := by
  obtain ⟨l, hstart, hreached, hkeeps, hauthority⟩ : ∃ l : Ledger PoolToken,
      Ledger.start { recovery := { maxStrikes := 1 } } ⟨1⟩ (some ⟨2⟩) .empty .epoch = .ok l ∧
        (1 : Word 32) ≤ (l.after struckRun).governance.strikes ∧
        (∀ call ∈ (l.after struckRun).granted handoverRun, call.request.clearsStrikes = false) ∧
        (l.after (struckRun ++ handoverRun)).governance.authority = ⟨3⟩ :=
    ⟨_, rfl, by decide +kernel, by decide +kernel, by decide +kernel⟩
  obtain ⟨-, hrevoked⟩ := revoked_until_cleared hstart struckRun
  exact ⟨l, hstart, hreached, hkeeps, hauthority, hrevoked hreached handoverRun hkeeps⟩

end Ledger

end Settlement
