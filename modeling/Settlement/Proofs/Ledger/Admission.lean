import Settlement.Proofs.Ledger.Payout

namespace Settlement

/-- What a claim takes from the fund of its period when it is paid: the period and the whole amount,
whatever arrives of it. -/
def ClaimEntry.reservation (entry : ClaimEntry) : Ledger.Reservation := (entry.period, entry.amount)

/-- The claim that an entry makes for a claimant, of which its leaf and its commitment are the
digests. -/
def ClaimEntry.claim (entry : ClaimEntry) (domain : Domain) (claimant : Address) : Claim :=
  { domain, claimant, period := entry.period, amount := entry.amount }

/-- Lists of equal length are put together to the entries that they are the columns of. -/
theorem ClaimEntry.ofLists_eq_ok_iff {periods : List PeriodId} {amounts : List Amount}
    {nonces : List Digest} {proofs : List (List Digest)} {entries : List ClaimEntry} :
    ClaimEntry.ofLists periods amounts nonces proofs = .ok entries ↔
      entries.map ClaimEntry.period = periods ∧ entries.map ClaimEntry.amount = amounts ∧
        entries.map ClaimEntry.nonce = nonces ∧ entries.map ClaimEntry.proof = proofs := by
  constructor
  · intro h
    obtain ⟨_, hlengths, h⟩ := Result.bind_eq_ok_iff.1 h
    obtain rfl := Result.pure_eq_ok_iff.1 h
    rw [Result.forM_eq_ok_iff] at hlengths
    simp only [List.forall_mem_cons, require_eq_ok_iff] at hlengths
    obtain ⟨hamounts, hnonces, hproofs, -⟩ := hlengths
    have hinner : (nonces.zip proofs).length = periods.length := by simp [hnonces, hproofs]
    have hmiddle : (amounts.zip (nonces.zip proofs)).length = periods.length := by
      simp [hamounts, hinner]
    have hrest : (periods.zip (amounts.zip (nonces.zip proofs))).map Prod.snd =
        amounts.zip (nonces.zip proofs) := List.map_snd_zip (Nat.le_of_eq hmiddle)
    have hlast : ((periods.zip (amounts.zip (nonces.zip proofs))).map Prod.snd).map Prod.snd =
        nonces.zip proofs := by
      rw [hrest]
      exact List.map_snd_zip (by omega)
    simp only [List.map_map]
    refine ⟨List.map_fst_zip (Nat.le_of_eq hmiddle.symm), ?_, ?_, ?_⟩
    · calc (periods.zip (amounts.zip (nonces.zip proofs))).map _
          = ((periods.zip (amounts.zip (nonces.zip proofs))).map Prod.snd).map Prod.fst :=
            List.map_map.symm
        _ = amounts := by rw [hrest]; exact List.map_fst_zip (by omega)
    · calc (periods.zip (amounts.zip (nonces.zip proofs))).map _
          = (((periods.zip (amounts.zip (nonces.zip proofs))).map Prod.snd).map Prod.snd).map
              Prod.fst := by rw [List.map_map, List.map_map]; rfl
        _ = nonces := by rw [hlast]; exact List.map_fst_zip (by omega)
    · calc (periods.zip (amounts.zip (nonces.zip proofs))).map _
          = (((periods.zip (amounts.zip (nonces.zip proofs))).map Prod.snd).map Prod.snd).map
              Prod.snd := by rw [List.map_map, List.map_map]; rfl
        _ = proofs := by rw [hlast]; exact List.map_snd_zip (by omega)
  · rintro ⟨rfl, rfl, rfl, rfl⟩
    refine Result.bind_eq_ok_iff.2 ⟨(), Result.forM_eq_ok_iff.2 ?_, ?_⟩
    · simp only [List.forall_mem_cons, require_eq_ok_iff, List.length_map]
      simp
    · rw [List.zip_map', List.zip_map', List.zip_map', List.map_map]
      exact congrArg Except.ok (List.map_id _)

/-- What a batch claims is read off the periods and amounts that it is given as. -/
theorem ClaimEntry.map_reservation_of_ofLists {periods : List PeriodId} {amounts : List Amount}
    {nonces : List Digest} {proofs : List (List Digest)} {entries : List ClaimEntry}
    (h : ClaimEntry.ofLists periods amounts nonces proofs = .ok entries) :
    entries.map ClaimEntry.reservation = periods.zip amounts := by
  obtain ⟨rfl, rfl, -⟩ := ClaimEntry.ofLists_eq_ok_iff.1 h
  rw [List.zip_map']
  rfl

namespace Ledger

variable {τ : Type} {l : Ledger τ} {ctx : CallContext} {claimant : Address} {now : Timestamp}
  {period : PeriodId} {amount total : Amount} {nonce : Digest} {proof : List Digest}
  {entry : ClaimEntry} {entries : List ClaimEntry}

/-- The conditions of a claim: that it is proven against a root that can be claimed against, unpaid,
covered by its period, and within the limits of the policy. -/
structure ValidClaim (l : Ledger τ) (claimant : Address) (now : Timestamp) (period : PeriodId)
    (amount : Amount) (proof : List Digest) : Prop where
  positive : amount ≠ 0
  worthwhile : l.claimPolicy.minClaimAmount ≤ amount
  short : proof.length ≤ l.claimPolicy.maxProofLength.val
  closed : l.era.isClosed period = true
  proven : ∃ commitment, l.commitments.claimable l.claimPolicy period now = .ok commitment ∧
    verifyProof (Claim.leaf { domain := l.domain, claimant, period, amount }) proof
      commitment.root = true
  unclaimed : l.hasClaimed claimant period = false
  covered : amount ≤ l.remaining period

theorem validateClaim_eq_ok_iff :
    l.validateClaim claimant now period amount proof = .ok () ↔
      l.ValidClaim claimant now period amount proof := by
  simp only [validateClaim, checkClosed, ClaimRegistry.check, Result.bind_eq_ok_iff,
    require_eq_ok_iff, exists_and_left, exists_const, Bool.not_eq_true]
  constructor
  · rintro ⟨hpositive, hworthwhile, hshort, hclosed, c, hc, hunclaimed, hproof, hcovered⟩
    exact ⟨hpositive, hworthwhile, hshort, hclosed, ⟨c, hc, hproof⟩, hunclaimed, hcovered⟩
  · rintro ⟨hpositive, hworthwhile, hshort, hclosed, ⟨c, hc, hproof⟩, hunclaimed, hcovered⟩
    exact ⟨hpositive, hworthwhile, hshort, hclosed, c, hc, hunclaimed, hproof, hcovered⟩

/-- The claimant has an open commitment for the period, made in an earlier block, and to just what
is revealed. -/
def ValidReveal (l : Ledger τ) (ctx : CallContext) (period : PeriodId) (amount : Amount)
    (nonce : Digest) : Prop :=
  ∃ commit, l.commits.get? ctx.caller period = some commit ∧ commit.block < ctx.block ∧
    Claim.commitment { domain := l.domain, claimant := ctx.caller, period, amount } nonce =
      commit.digest

theorem checkReveal_eq_ok_iff :
    l.checkReveal ctx period amount nonce = .ok () ↔ l.ValidReveal ctx period amount nonce := by
  simp only [checkReveal, CommitBook.checkReveal, Result.bind_eq_ok_iff, orRefuse_eq_ok_iff,
    require_eq_ok_iff, exists_and_left, exists_const]
  rfl

/-- The search for a period that is claimed twice finds none exactly if the periods are
different. -/
private theorem duplicate?_eq_none_iff {seen periods : List PeriodId} :
    duplicate? seen periods = none ↔ periods.Nodup ∧ ∀ p ∈ periods, p ∉ seen := by
  induction periods generalizing seen with
  | nil => simp [duplicate?]
  | cons p rest ih =>
    rw [duplicate?, List.nodup_cons, List.forall_mem_cons]
    by_cases hp : p ∈ seen
    · simp [hp]
    · rw [if_neg hp, ih]
      simp only [List.mem_cons, not_or]
      grind

/-- The conditions of several claims together. A period can be named once only, and the amounts have
to add up within the width. -/
structure ValidBatch (l : Ledger τ) (entries : List ClaimEntry) (total : Amount) : Prop where
  nonempty : entries ≠ []
  small : entries.length ≤ l.claimPolicy.maxClaimBatch.val
  nodup : (entries.map ClaimEntry.period).Nodup
  sum : sum? (entries.map ClaimEntry.amount) = some total

theorem checkClaimBatch_eq_ok_iff :
    l.checkClaimBatch entries = .ok total ↔ l.ValidBatch entries total := by
  simp only [checkClaimBatch, Result.bind_eq_ok_iff, require_eq_ok_iff, exists_and_left,
    exists_const]
  have hnone : duplicate? [] (entries.map ClaimEntry.period) = none ↔
      (entries.map ClaimEntry.period).Nodup := by
    rw [duplicate?_eq_none_iff]
    exact ⟨And.left, fun h => ⟨h, fun _ _ => List.not_mem_nil⟩⟩
  constructor
  · rintro ⟨hnonempty, hsmall, h⟩
    split at h
    · cases h
    · next hunique => exact ⟨hnonempty, hsmall, hnone.1 hunique, orRefuse_eq_ok_iff.1 h⟩
  · rintro ⟨hnonempty, hsmall, hnodup, hsum⟩
    refine ⟨hnonempty, hsmall, ?_⟩
    rw [hnone.2 hnodup]
    exact orRefuse_eq_ok_iff.2 hsum

/-- All checks of a claim of one period, in the order in which they are made: its commitment, the
halt, and the claim itself. -/
def admitOne (l : Ledger τ) (ctx : CallContext) (entry : ClaimEntry) : Result Unit := do
  l.checkReveal ctx entry.period entry.amount entry.nonce
  l.halt.checkNotHalted
  l.validateClaim ctx.caller ctx.now entry.period entry.amount entry.proof

/-- All checks of claims of several periods, in the order in which they are made. Gives the sum of
the amounts, which is transferred at once. -/
def admitAll (l : Ledger τ) (ctx : CallContext) (entries : List ClaimEntry) : Result Amount := do
  entries.forM fun e => l.checkReveal ctx e.period e.amount e.nonce
  l.halt.checkNotHalted
  let total ← l.checkClaimBatch entries
  entries.forM fun e => l.validateClaim ctx.caller ctx.now e.period e.amount e.proof
  return total

theorem checkNotHalted_eq_ok_iff : l.halt.checkNotHalted = .ok () ↔ l.isHalted = false := by
  rw [HaltSwitch.checkNotHalted, require_eq_ok_iff, Bool.not_eq_true]
  rfl

theorem admitOne_eq_ok_iff : l.admitOne ctx entry = .ok () ↔
    l.ValidReveal ctx entry.period entry.amount entry.nonce ∧ l.isHalted = false ∧
      l.ValidClaim ctx.caller ctx.now entry.period entry.amount entry.proof := by
  constructor
  · intro h
    obtain ⟨_, hreveal, h⟩ := Result.bind_eq_ok_iff.1 h
    obtain ⟨_, hlive, h⟩ := Result.bind_eq_ok_iff.1 h
    exact ⟨checkReveal_eq_ok_iff.1 hreveal, checkNotHalted_eq_ok_iff.1 hlive,
      validateClaim_eq_ok_iff.1 h⟩
  · rintro ⟨hreveal, hlive, hvalid⟩
    refine Result.bind_eq_ok_iff.2 ⟨(), checkReveal_eq_ok_iff.2 hreveal, ?_⟩
    exact Result.bind_eq_ok_iff.2 ⟨(), checkNotHalted_eq_ok_iff.2 hlive,
      validateClaim_eq_ok_iff.2 hvalid⟩

theorem admitAll_eq_ok_iff : l.admitAll ctx entries = .ok total ↔
    (∀ e ∈ entries, l.ValidReveal ctx e.period e.amount e.nonce) ∧ l.isHalted = false ∧
      l.ValidBatch entries total ∧
      ∀ e ∈ entries, l.ValidClaim ctx.caller ctx.now e.period e.amount e.proof := by
  constructor
  · intro h
    obtain ⟨_, hreveal, h⟩ := Result.bind_eq_ok_iff.1 h
    obtain ⟨_, hlive, h⟩ := Result.bind_eq_ok_iff.1 h
    obtain ⟨sum, hbatch, h⟩ := Result.bind_eq_ok_iff.1 h
    obtain ⟨_, hvalid, h⟩ := Result.bind_eq_ok_iff.1 h
    obtain rfl := Result.pure_eq_ok_iff.1 h
    rw [Result.forM_eq_ok_iff] at hreveal hvalid
    exact ⟨fun e he => checkReveal_eq_ok_iff.1 (hreveal e he), checkNotHalted_eq_ok_iff.1 hlive,
      checkClaimBatch_eq_ok_iff.1 hbatch, fun e he => validateClaim_eq_ok_iff.1 (hvalid e he)⟩
  · rintro ⟨hreveal, hlive, hbatch, hvalid⟩
    refine Result.bind_eq_ok_iff.2 ⟨(), Result.forM_eq_ok_iff.2 fun e he =>
      checkReveal_eq_ok_iff.2 (hreveal e he), ?_⟩
    refine Result.bind_eq_ok_iff.2 ⟨(), checkNotHalted_eq_ok_iff.2 hlive, ?_⟩
    refine Result.bind_eq_ok_iff.2 ⟨total, checkClaimBatch_eq_ok_iff.2 hbatch, ?_⟩
    exact Result.bind_eq_ok_iff.2 ⟨(), Result.forM_eq_ok_iff.2 fun e he =>
      validateClaim_eq_ok_iff.2 (hvalid e he), rfl⟩

theorem admitOne_of_admitAll (h : l.admitAll ctx entries = .ok total) (hmem : entry ∈ entries) :
    l.admitOne ctx entry = .ok () := by
  obtain ⟨hreveal, hlive, -, hvalid⟩ := admitAll_eq_ok_iff.1 h
  exact admitOne_eq_ok_iff.2 ⟨hreveal entry hmem, hlive, hvalid entry hmem⟩

/-- An entry that can be revealed as the only claim of its period: the leaf of `claim`, which it
makes, is the root there and its proof is empty, and nothing else stands in its way. -/
structure Sole (l : Ledger τ) (ctx : CallContext) (e : ClaimEntry) (claim : Claim) : Prop where
  makes : e.claim l.domain ctx.caller = claim
  committed : ∃ block made, block < ctx.block ∧
    l.commits.get? ctx.caller e.period = some ⟨claim.commitment e.nonce, block, made⟩
  posted : ∃ commitment, l.commitments.claimable l.claimPolicy e.period ctx.now = .ok commitment ∧
    commitment.root = claim.leaf
  plain : e.amount ≠ 0 ∧ l.claimPolicy.minClaimAmount ≤ e.amount ∧ e.proof = [] ∧
    l.era.isClosed e.period = true ∧ l.hasClaimed ctx.caller e.period = false ∧
      e.amount ≤ l.remaining e.period

theorem Sole.validReveal {claim : Claim} (h : l.Sole ctx entry claim) :
    l.ValidReveal ctx entry.period entry.amount entry.nonce := by
  obtain ⟨block, made, hblock, hcommit⟩ := h.committed
  rw [← h.makes] at hcommit
  exact ⟨_, hcommit, hblock, rfl⟩

theorem Sole.validClaim {claim : Claim} (h : l.Sole ctx entry claim) :
    l.ValidClaim ctx.caller ctx.now entry.period entry.amount entry.proof := by
  obtain ⟨hpositive, hworthwhile, hnil, hclosed, hunclaimed, hcovered⟩ := h.plain
  obtain ⟨commitment, hcommitment, hleaf⟩ := h.posted
  refine ⟨hpositive, hworthwhile, ?_, hclosed, ⟨commitment, hcommitment, ?_⟩, hunclaimed, hcovered⟩
  · rw [hnil]
    exact Nat.zero_le _
  · rw [hnil, hleaf, ← h.makes]
    exact decide_eq_true rfl

theorem admitOne_of_sole (claim : Claim) (h : l.Sole ctx entry claim) (hlive : l.isHalted = false) :
    l.admitOne ctx entry = .ok () :=
  admitOne_eq_ok_iff.2 ⟨h.validReveal, hlive, h.validClaim⟩

theorem admitAll_of_sole (claim : ClaimEntry → Claim) (h : ∀ e ∈ entries, l.Sole ctx e (claim e))
    (hlive : l.isHalted = false) (hbatch : l.ValidBatch entries total) :
    l.admitAll ctx entries = .ok total :=
  admitAll_eq_ok_iff.2 ⟨fun e he => (h e he).validReveal, hlive, hbatch,
    fun e he => (h e he).validClaim⟩

/-- Valid claims for different periods can be paid together: they are unpaid, and covered each by
its own period. -/
theorem payable_of_valid (entries : List ClaimEntry)
    (hnodup : (entries.map ClaimEntry.period).Nodup)
    (hvalid : ∀ e ∈ entries, l.ValidClaim ctx.caller ctx.now e.period e.amount e.proof) :
    l.Payable ctx.caller (entries.map ClaimEntry.reservation) := by
  refine ⟨?_, fun entry hmem => ?_, fun entry hmem => ?_⟩
  · rw [List.map_map]
    exact hnodup
  · obtain ⟨e, he, rfl⟩ := List.mem_map.1 hmem
    exact (hvalid e he).unclaimed
  · obtain ⟨e, he, rfl⟩ := List.mem_map.1 hmem
    exact FundBook.get?_of_le_remaining (hvalid e he).positive (hvalid e he).covered

theorem payable_of_admitOne (h : l.admitOne ctx entry = .ok ()) :
    l.Payable ctx.caller [entry.reservation] := by
  apply payable_of_valid [entry]
  · simp
  · intro e he
    rw [List.mem_singleton.1 he]
    exact (admitOne_eq_ok_iff.1 h).2.2

theorem payable_of_admitAll (h : l.admitAll ctx entries = .ok total) :
    l.Payable ctx.caller (entries.map ClaimEntry.reservation) := by
  obtain ⟨-, -, hbatch, hvalid⟩ := admitAll_eq_ok_iff.1 h
  exact payable_of_valid entries hbatch.nodup hvalid

/-- A claim that is admitted is not for nothing, and its amount is what is transferred. -/
theorem isTotal_of_admitOne (h : l.admitOne ctx entry = .ok ()) :
    IsTotal [entry.reservation] entry.amount := by
  refine ⟨by simp, fun reserved hmem => ?_, rfl⟩
  rw [List.mem_singleton.1 hmem]
  exact (admitOne_eq_ok_iff.1 h).2.2.positive

theorem isTotal_of_admitAll (h : l.admitAll ctx entries = .ok total) :
    IsTotal (entries.map ClaimEntry.reservation) total := by
  obtain ⟨-, -, hbatch, hvalid⟩ := admitAll_eq_ok_iff.1 h
  refine ⟨fun hnil => hbatch.nonempty (List.map_eq_nil_iff.1 hnil), fun reserved hmem => ?_, ?_⟩
  · obtain ⟨e, he, rfl⟩ := List.mem_map.1 hmem
    exact (hvalid e he).positive
  · rw [List.map_map]
    exact sum?_eq_some_iff.1 hbatch.sum

end Ledger

end Settlement
