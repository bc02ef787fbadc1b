import Settlement.Proofs.Claim.Marks
import Settlement.Proofs.Era.Call
import Settlement.Proofs.Governance

namespace Settlement

/-- What a request asks of the periods, if it asks anything of them. -/
def Request.eraCall? (now : Timestamp) : Request → Option EraCall
  | .advancePeriod => some (.advance now)
  | .setFeeSchedule schedule => some (.setFeeSchedule schedule)
  | .recordOperations count => some (.record count)
  | _ => none

namespace Ledger

variable {τ : Type}

/-- The effect of an accepted request that moves no money, with the checks that it passed: which
part of the state it puts in place of the old. -/
inductive Controlled (l : Ledger τ) (ctx : CallContext) : Request → Answer → Ledger τ → Prop
  | advanced {snapshot : PeriodSnapshot} {era : Era}
      (hoperator : l.checkOperator ctx.caller = .ok ())
      (hera : l.era.advance ctx.now = .ok (snapshot, era)) :
      Controlled l ctx .advancePeriod (.period snapshot) (Ledger.touch { l with era } ctx.now)
  | priced {schedule : FeeSchedule} {era : Era}
      (hauthority : l.governance.checkAuthority ctx.caller = .ok ())
      (hera : l.era.setFeeSchedule schedule = .ok era) :
      Controlled l ctx (.setFeeSchedule schedule) .done
        (Ledger.touch { l with era, eraPolicy.feeSchedule := schedule } ctx.now)
  | counted {count : Count} {era : Era} (hera : l.era.record count = .ok era) :
      Controlled l ctx (.recordOperations count) .done { l with era }
  | posted {period : PeriodId} {root : Digest} {c : Commitment} {commitments : CommitmentBook}
      (hoperator : l.checkOperator ctx.caller = .ok ()) (hclosed : l.era.isClosed period = true)
      (hpost : l.commitments.post l.claimPolicy l.governance.policy period root ctx.now =
        .ok (c, commitments)) :
      Controlled l ctx (.postCommitment period root) .done
        (Ledger.touch { l with commitments } ctx.now)
  | disputed {period : PeriodId} {commitments : CommitmentBook}
      (hguardian : l.governance.checkGuardian ctx.caller = .ok ())
      (hdispute : l.commitments.dispute l.governance.policy ctx.caller period ctx.now =
        .ok commitments) :
      Controlled l ctx (.disputeCommitment period) .done { l with commitments }
  | replaced {period : PeriodId} {root : Digest} {replacements : Word 32}
      {commitments : CommitmentBook} (hoperator : l.checkOperator ctx.caller = .ok ())
      (hreplace : l.commitments.replace period root ctx.now = .ok (replacements, commitments)) :
      Controlled l ctx (.replaceCommitment period root)
        (.strikes (l.governance.touch ctx.now).strike.strikes)
        { l with commitments, governance := (l.governance.touch ctx.now).strike }
  | committed {period : PeriodId} {digest : Digest} (hclosed : l.era.isClosed period = true)
      (hposted : l.commitments.contains period = true)
      (hunclaimed : l.hasClaimed ctx.caller period = false) :
      Controlled l ctx (.commitClaim period digest) .done
        { l with commits := l.commits.commit ctx.caller period ⟨digest, ctx.block, ctx.now⟩ }
  | halted {halt : HaltSwitch} (hhalt : l.halt.halt ctx l.governance = .ok halt) :
      Controlled l ctx .halt .done (Ledger.touch { l with halt } ctx.now)
  | resumed {halt : HaltSwitch} (hhalt : l.halt.unhalt ctx l.governance = .ok halt) :
      Controlled l ctx .unhalt .done
        (if l.governance.guardianEverConfigured then { l with halt }
          else Ledger.touch { l with halt } ctx.now)
  | governed {request : Request} {change : Governance → Result Governance}
      {governance : Governance} (hchange : request.change? ctx = some change)
      (hgovernance : change l.governance = .ok governance) :
      Controlled l ctx request .done { l with governance }

/-- What no request changes, whatever its outcome: the policies of claims and of recovery and the
domain, which are fixed when the ledger starts. -/
structure SamePolicy (l l' : Ledger τ) : Prop where
  claims : l'.claimPolicy = l.claimPolicy
  recovery : l'.governance.policy = l.governance.policy
  domain : l'.domain = l.domain

theorem SamePolicy.refl (l : Ledger τ) : SamePolicy l l := ⟨rfl, rfl, rfl⟩

theorem SamePolicy.trans {l l' l'' : Ledger τ} (h : SamePolicy l l') (h' : SamePolicy l' l'') :
    SamePolicy l l'' :=
  ⟨h'.claims.trans h.claims, h'.recovery.trans h.recovery, h'.domain.trans h.domain⟩

/-- The periods after a request, and the terms of them that the ledger gives out. -/
inductive EraMoved (l : Ledger τ) (now : Timestamp) (request : Request) (l' : Ledger τ) : Prop
  | kept (hera : l'.era = l.era) (hpolicy : l'.eraPolicy = l.eraPolicy)
  | applied {call : EraCall} (hcall : request.eraCall? now = some call)
      (hera : l.era.apply call = .ok l'.era)
      (hpolicy : l.eraPolicy = l.era.policy → l'.eraPolicy = l'.era.policy)

namespace EraMoved

variable {l l' : Ledger τ} {now : Timestamp} {request : Request}

theorem lt_current (h : EraMoved l now request l') {p : PeriodId} (hp : p < l.era.current) :
    p < l'.era.current := by
  cases h with
  | kept hera => rwa [hera]
  | applied _ hera => exact (Era.stepped hera).lt_current hp

/-- If the ledger gives out the terms that the periods go by, it still does after the request. -/
theorem eraPolicy_eq (h : EraMoved l now request l') (hpolicy : l.eraPolicy = l.era.policy) :
    l'.eraPolicy = l'.era.policy := by
  cases h with
  | kept hera hkept => rw [hera, hkept, hpolicy]
  | applied _ _ happlied => exact happlied hpolicy

end EraMoved

section Controlled

variable {l l' : Ledger τ} {ctx : CallContext} {request : Request} {answer : Answer}

theorem Controlled.samePolicy (h : Controlled l ctx request answer l') : SamePolicy l l' := by
  cases h with
  | resumed =>
    split
    · exact ⟨rfl, rfl, rfl⟩
    · exact ⟨rfl, rfl, rfl⟩
  | governed hchange hgovernance =>
    exact ⟨rfl, (Governance.changed_of_change hchange hgovernance).policy_eq, rfl⟩
  | _ => exact ⟨rfl, rfl, rfl⟩

theorem Controlled.money (h : Controlled l ctx request answer l') :
    l'.funds = l.funds ∧ l'.registry = l.registry ∧ l'.token = l.token := by
  cases h with
  | resumed =>
    split
    · exact ⟨rfl, rfl, rfl⟩
    · exact ⟨rfl, rfl, rfl⟩
  | _ => exact ⟨rfl, rfl, rfl⟩

theorem Controlled.eraMoved (h : Controlled l ctx request answer l') :
    EraMoved l ctx.now request l' := by
  cases h with
  | @advanced snapshot era _ hera =>
    have happly : l.era.apply (.advance ctx.now) = .ok era := Result.map_eq_ok_iff.2 ⟨_, hera, rfl⟩
    exact .applied rfl happly fun hsame => hsame.trans (Era.stepped happly).policy_eq.symm
  | @priced schedule era _ hera =>
    have happly : l.era.apply (.setFeeSchedule schedule) = .ok era := hera
    refine .applied rfl happly fun hsame => ?_
    change { l.eraPolicy with feeSchedule := schedule } = era.policy
    rw [hsame]
    exact (Era.stepped happly).policy_eq.symm
  | @counted count era hera =>
    have happly : l.era.apply (.record count) = .ok era := hera
    exact .applied rfl happly fun hsame => hsame.trans (Era.stepped happly).policy_eq.symm
  | resumed =>
    split
    · exact .kept rfl rfl
    · exact .kept rfl rfl
  | _ => exact .kept rfl rfl

/-- A commitment of a claimant is only opened for an unpaid claim of a posted period. -/
theorem Controlled.commits (h : Controlled l ctx request answer l') {who : Address} {p : PeriodId}
    {commit : ClaimCommit} (hget : l'.commits.get? who p = some commit) :
    l.commits.get? who p = some commit ∨
      (l.commitments.contains p = true ∧ l.hasClaimed who p = false) := by
  cases h with
  | @committed period _ _ hposted hunclaimed =>
    rw [CommitBook.get?_commit] at hget
    split at hget
    · next heq =>
      obtain ⟨rfl, rfl⟩ := heq
      exact Or.inr ⟨hposted, hunclaimed⟩
    · exact Or.inl hget
  | resumed =>
    split at hget
    · exact Or.inl hget
    · exact Or.inl hget
  | _ => exact Or.inl hget

end Controlled

section inversion

variable {l l' : Ledger τ} {ctx : CallContext}

theorem commitIf_eq_ok_iff {α : Type} {r : Result (α × Ledger τ)} {a : α} :
    l.commitIf r = (.ok a, l') ↔ r = .ok (a, l') := by
  cases r with
  | error e => simp [commitIf]
  | ok accepted => simp [commitIf, Prod.ext_iff]

theorem controlled_advancePeriod {snapshot : PeriodSnapshot}
    (h : l.advancePeriod ctx = (.ok snapshot, l')) :
    Controlled l ctx .advancePeriod (.period snapshot) l' := by
  obtain ⟨_, hoperator, h⟩ := Result.bind_eq_ok_iff.1 (commitIf_eq_ok_iff.1 h)
  obtain ⟨⟨snapshot, era⟩, hera, h⟩ := Result.bind_eq_ok_iff.1 h
  cases h
  exact .advanced hoperator hera

theorem controlled_setFeeSchedule {schedule : FeeSchedule} {u : Unit}
    (h : l.setFeeSchedule ctx schedule = (.ok u, l')) :
    Controlled l ctx (.setFeeSchedule schedule) .done l' := by
  obtain ⟨_, hauthority, h⟩ := Result.bind_eq_ok_iff.1 (commitIf_eq_ok_iff.1 h)
  obtain ⟨era, hera, h⟩ := Result.bind_eq_ok_iff.1 h
  cases h
  exact .priced hauthority hera

theorem controlled_recordOperations {count : Count} {u : Unit}
    (h : l.recordOperations count = (.ok u, l')) :
    Controlled l ctx (.recordOperations count) .done l' := by
  obtain ⟨era, hera, h⟩ := Result.bind_eq_ok_iff.1 (commitIf_eq_ok_iff.1 h)
  cases h
  exact .counted hera

theorem controlled_postCommitment {period : PeriodId} {root : Digest} {u : Unit}
    (h : l.postCommitment ctx period root = (.ok u, l')) :
    Controlled l ctx (.postCommitment period root) .done l' := by
  obtain ⟨_, hoperator, h⟩ := Result.bind_eq_ok_iff.1 (commitIf_eq_ok_iff.1 h)
  obtain ⟨_, hclosed, h⟩ := Result.bind_eq_ok_iff.1 h
  obtain ⟨⟨c, commitments⟩, hpost, h⟩ := Result.bind_eq_ok_iff.1 h
  cases h
  exact .posted hoperator (require_eq_ok_iff.1 hclosed) hpost

theorem controlled_disputeCommitment {period : PeriodId} {u : Unit}
    (h : l.disputeCommitment ctx period = (.ok u, l')) :
    Controlled l ctx (.disputeCommitment period) .done l' := by
  obtain ⟨_, hguardian, h⟩ := Result.bind_eq_ok_iff.1 (commitIf_eq_ok_iff.1 h)
  obtain ⟨commitments, hdispute, h⟩ := Result.bind_eq_ok_iff.1 h
  cases h
  exact .disputed hguardian hdispute

theorem controlled_replaceCommitment {period : PeriodId} {root : Digest} {strikes : Word 32}
    (h : l.replaceCommitment ctx period root = (.ok strikes, l')) :
    Controlled l ctx (.replaceCommitment period root) (.strikes strikes) l' := by
  obtain ⟨_, hoperator, h⟩ := Result.bind_eq_ok_iff.1 (commitIf_eq_ok_iff.1 h)
  obtain ⟨⟨replacements, commitments⟩, hreplace, h⟩ := Result.bind_eq_ok_iff.1 h
  cases h
  exact .replaced hoperator hreplace

theorem controlled_commitClaim {period : PeriodId} {digest : Digest} {u : Unit}
    (h : l.commitClaim ctx period digest = (.ok u, l')) :
    Controlled l ctx (.commitClaim period digest) .done l' := by
  obtain ⟨_, hclosed, h⟩ := Result.bind_eq_ok_iff.1 (commitIf_eq_ok_iff.1 h)
  obtain ⟨_, hposted, h⟩ := Result.bind_eq_ok_iff.1 h
  obtain ⟨_, hunclaimed, h⟩ := Result.bind_eq_ok_iff.1 h
  cases h
  exact .committed (require_eq_ok_iff.1 hclosed) (require_eq_ok_iff.1 hposted)
    (Bool.not_eq_true _ ▸ require_eq_ok_iff.1 hunclaimed)

theorem controlled_raiseHalt {u : Unit} (h : l.raiseHalt ctx = (.ok u, l')) :
    Controlled l ctx .halt .done l' := by
  obtain ⟨halt, hhalt, h⟩ := Result.bind_eq_ok_iff.1 (commitIf_eq_ok_iff.1 h)
  cases h
  exact .halted hhalt

/-- The halt is lifted. While there has never been a guardian the authority lifts it, which shows
that it is active. -/
theorem controlled_liftHalt {u : Unit} (h : l.liftHalt ctx = (.ok u, l')) :
    Controlled l ctx .unhalt .done l' := by
  obtain ⟨halt, hhalt, h⟩ := Result.bind_eq_ok_iff.1 (commitIf_eq_ok_iff.1 h)
  cases h
  exact .resumed hhalt

theorem controlled_govern {request : Request} {change : Governance → Result Governance} {u : Unit}
    (hchange : request.change? ctx = some change) (h : l.govern change = (.ok u, l')) :
    Controlled l ctx request .done l' := by
  obtain ⟨governance, hgovernance, h⟩ := Result.bind_eq_ok_iff.1 (commitIf_eq_ok_iff.1 h)
  cases h
  exact .governed hchange hgovernance

end inversion

end Ledger

end Settlement
