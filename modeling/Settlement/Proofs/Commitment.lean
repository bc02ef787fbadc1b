import Settlement.Commitment
import Settlement.Proofs.Result
import Settlement.Proofs.Table
import Settlement.Proofs.Time

namespace Settlement

theorem Commitment.isDisputed_eq_false_iff {c : Commitment} :
    c.isDisputed = false ↔ c.dispute = none := by
  unfold isDisputed
  rw [Option.isSome_eq_false_iff, Option.isNone_iff_eq_none]

namespace CommitmentBook

variable {b b' : CommitmentBook} {claims : ClaimPolicy} {recovery : RecoveryPolicy}
  {guardian : Address} {period p : PeriodId} {root : Digest} {now : Timestamp} {c : Commitment}

/-- A root has been posted for a period exactly if there is a row for it. -/
theorem contains_iff : b.contains p = true ↔ ∃ c, b.get? p = some c := Table.contains_iff

theorem get?_set (b : CommitmentBook) (period p : PeriodId) (c : Commitment) :
    (b.set period c).get? p = if p = period then some c else b.get? p :=
  Table.get?_insert b.commitments period p c

/-- A posting opens the row of its period, or renews it when it is undisputed and objections to it
would come too late. What was replaced and when the row was opened stay as they are. -/
theorem post_eq_ok (h : b.post claims recovery period root now = .ok (c, b')) :
    b' = b.set period c ∧
      ((b.get? period = none ∧ c = .first claims period root now) ∨
        ∃ old, b.get? period = some old ∧ old.dispute = none ∧
          old.objectionEnd recovery ≤ now ∧ c = { old with root, postedAt := now }) := by
  unfold post at h
  cases hget : b.get? period with
  | none =>
    rw [hget] at h
    cases h
    exact ⟨rfl, Or.inl ⟨rfl, rfl⟩⟩
  | some old =>
    rw [hget] at h
    obtain ⟨_, hundisputed, h⟩ := Result.bind_eq_ok_iff.1 h
    obtain ⟨_, hover, h⟩ := Result.bind_eq_ok_iff.1 h
    cases h
    rw [require_eq_ok_iff, Bool.not_eq_true, Commitment.isDisputed_eq_false_iff] at hundisputed
    exact ⟨rfl, Or.inr ⟨old, rfl, hundisputed, require_eq_ok_iff.1 hover, rfl⟩⟩

/-- A dispute is for an undisputed root whose time for objections is not over. It changes nothing
but the mark of the dispute. -/
theorem dispute_eq_ok (h : b.dispute recovery guardian period now = .ok b') :
    ∃ c raised, b.get? period = some c ∧ c.dispute = none ∧ now < c.objectionEnd recovery ∧
      ∀ p, b'.get? p = if p = period then some { c with dispute := some raised } else b.get? p := by
  obtain ⟨c, hget, h⟩ := Result.bind_eq_ok_iff.1 h
  obtain ⟨_, hundisputed, h⟩ := Result.bind_eq_ok_iff.1 h
  obtain ⟨_, hopen, h⟩ := Result.bind_eq_ok_iff.1 h
  rw [require_eq_ok_iff, Bool.not_eq_true, Commitment.isDisputed_eq_false_iff] at hundisputed
  refine ⟨c, ⟨guardian, now, now.after recovery.resolutionDelay⟩, orRefuse_eq_ok_iff.1 hget,
    hundisputed, require_eq_ok_iff.1 hopen, fun p => ?_⟩
  rw [← get?_set]
  simp only at h
  split at h
  · obtain ⟨_, -, h⟩ := Result.bind_eq_ok_iff.1 h
    cases h
    rfl
  · cases h
    rfl

theorem replace_eq_ok {replacements : Word 32}
    (h : b.replace period root now = .ok (replacements, b')) :
    ∃ old raised, b.get? period = some old ∧ old.dispute = some raised ∧
      b' = b.set period { old with root, postedAt := now, replacements, dispute := none } := by
  obtain ⟨old, hget, h⟩ := Result.bind_eq_ok_iff.1 h
  obtain ⟨raised, hraised, h⟩ := Result.bind_eq_ok_iff.1 h
  obtain ⟨_, -, h⟩ := Result.bind_eq_ok_iff.1 h
  cases h
  exact ⟨old, raised, orRefuse_eq_ok_iff.1 hget, orRefuse_eq_ok_iff.1 hraised, rfl⟩

/-- A root may be claimed against when it is undisputed, from its delay on and up to the deadline of
its period. -/
theorem claimable_eq_ok_iff : b.claimable claims period now = .ok c ↔
    b.get? period = some c ∧ c.dispute = none ∧ c.postedAt.after claims.claimDelay ≤ now ∧
      now ≤ c.claimDeadline := by
  simp only [claimable, Result.bind_eq_ok_iff, orRefuse_eq_ok_iff, require_eq_ok_iff,
    exists_and_left, exists_const, Result.pure_eq_ok_iff, Bool.not_eq_true,
    Commitment.isDisputed_eq_false_iff]
  constructor
  · rintro ⟨_, hget, hundisputed, hopen, hdeadline, rfl⟩
    exact ⟨hget, hundisputed, hopen, hdeadline⟩
  · rintro ⟨hget, hundisputed, hopen, hdeadline⟩
    exact ⟨c, hget, hundisputed, hopen, hdeadline, rfl⟩

/-- Claims open no earlier than objections close: objections to a root that can be claimed against
come too late. -/
theorem objectionEnd_le_of_claimable (hwindow : recovery.objectionWindow ≤ claims.claimDelay)
    (hposted : c.postedAt ≤ .latest) (hclaimable : b.claimable claims period now = .ok c) :
    c.objectionEnd recovery ≤ now := by
  obtain ⟨-, -, hopen, -⟩ := claimable_eq_ok_iff.1 hclaimable
  exact Timestamp.le_trans (Timestamp.after_le_after hposted hwindow) hopen

theorem not_dispute_of_claimable (hwindow : recovery.objectionWindow ≤ claims.claimDelay)
    (hposted : c.postedAt ≤ .latest) (hclaimable : b.claimable claims period now = .ok c) :
    b.dispute recovery guardian period now ≠ .ok b' := by
  intro hdispute
  obtain ⟨c', _, hget, -, hopen, -⟩ := dispute_eq_ok hdispute
  have hover := objectionEnd_le_of_claimable hwindow hposted hclaimable
  rw [(claimable_eq_ok_iff.1 hclaimable).1, Option.some.injEq] at hget
  subst hget
  exact Timestamp.not_lt.2 hover hopen

end CommitmentBook

end Settlement
