import Settlement.Ledger.Claim
import Settlement.Record.Policy

namespace Settlement

/-- The circumstances of a request, of which none may be missing. -/
instance : OfJson CallContext where
  ofJson? json := do
    let f ← Fields.ofJson? ["caller", "now", "block"] json
    return { caller := ← f.required "caller"
             now := ← f.required "now"
             block := ← f.required "block" }

instance : ToJson CallContext where
  toJson c := .ofMembers
    [("caller", toJson c.caller), ("now", toJson c.now), ("block", toJson c.block)]

/-- The fund of a period. The two times may be `null`, which is how a period without a deposit or a
sweep is written. -/
instance : OfJson PeriodFund where
  ofJson? json := do
    let f ← Fields.ofJson? ["deposited", "claimed", "precision_loss", "swept", "swept_at",
      "last_deposit_at"] json
    return { deposited := ← f.required "deposited"
             claimed := ← f.required "claimed"
             precisionLoss := ← f.required "precision_loss"
             swept := ← f.required "swept"
             sweptAt := ← f.optional "swept_at"
             lastDepositAt := ← f.optional "last_deposit_at" }

instance : ToJson PeriodFund where
  toJson p := .ofMembers
    [("deposited", toJson p.deposited),
      ("claimed", toJson p.claimed),
      ("precision_loss", toJson p.precisionLoss),
      ("swept", toJson p.swept),
      ("swept_at", toJson p.sweptAt),
      ("last_deposit_at", toJson p.lastDepositAt)]

instance : OfJson FundBook where
  ofJson? json := do
    let f ← Fields.ofJson? ["funds"] json
    return ⟨← f.required "funds"⟩

instance : ToJson FundBook := ⟨fun b => .ofMembers [("funds", toJson b.funds)]⟩

instance : OfJson PeriodSnapshot where
  ofJson? json := do
    let f ← Fields.ofJson? ["period", "operations", "opened_at", "closed_at", "overdue",
      "fee_schedule"] json
    return { period := ← f.required "period"
             operations := ← f.required "operations"
             openedAt := ← f.required "opened_at"
             closedAt := ← f.required "closed_at"
             overdue := ← f.required "overdue"
             feeSchedule := ← f.required "fee_schedule" }

instance : ToJson PeriodSnapshot where
  toJson s := .ofMembers
    [("period", toJson s.period),
      ("operations", toJson s.operations),
      ("opened_at", toJson s.openedAt),
      ("closed_at", toJson s.closedAt),
      ("overdue", toJson s.overdue),
      ("fee_schedule", toJson s.feeSchedule)]

/-- The periods up to the current one, as they are kept between two runs. -/
instance : OfJson Era where
  ofJson? json := do
    let f ← Fields.ofJson? ["config", "current", "accumulator", "period_started_at", "snapshots",
      "total_operations"] json
    return { policy := ← f.required "config"
             current := ← f.required "current"
             accumulator := ← f.required "accumulator"
             startedAt := ← f.required "period_started_at"
             snapshots := ← f.required "snapshots"
             totalOperations := ← f.required "total_operations" }

instance : ToJson Era where
  toJson e := .ofMembers
    [("config", toJson e.policy),
      ("current", toJson e.current),
      ("accumulator", toJson e.accumulator),
      ("period_started_at", toJson e.startedAt),
      ("snapshots", toJson e.snapshots),
      ("total_operations", toJson e.totalOperations)]

instance : OfJson Dispute where
  ofJson? json := do
    let f ← Fields.ofJson? ["guardian", "raised_at", "resolve_not_before"] json
    return { guardian := ← f.required "guardian"
             raisedAt := ← f.required "raised_at"
             resolveNotBefore := ← f.required "resolve_not_before" }

instance : ToJson Dispute where
  toJson d := .ofMembers
    [("guardian", toJson d.guardian),
      ("raised_at", toJson d.raisedAt),
      ("resolve_not_before", toJson d.resolveNotBefore)]

instance : OfJson Commitment where
  ofJson? json := do
    let f ← Fields.ofJson? ["period", "root", "posted_at", "first_posted_at", "claim_deadline",
      "replacements", "dispute"] json
    return { period := ← f.required "period"
             root := ← f.required "root"
             postedAt := ← f.required "posted_at"
             firstPostedAt := ← f.required "first_posted_at"
             claimDeadline := ← f.required "claim_deadline"
             replacements := ← f.required "replacements"
             dispute := ← f.optional "dispute" }

instance : ToJson Commitment where
  toJson c := .ofMembers
    [("period", toJson c.period),
      ("root", toJson (c.root : Word 256)),
      ("posted_at", toJson c.postedAt),
      ("first_posted_at", toJson c.firstPostedAt),
      ("claim_deadline", toJson c.claimDeadline),
      ("replacements", toJson c.replacements),
      ("dispute", toJson c.dispute)]

instance : OfJson ClaimReceipt where
  ofJson? json := do
    let f ← Fields.ofJson? ["claimant", "period", "amount", "received", "precision_loss"] json
    return { claimant := ← f.required "claimant"
             period := ← f.required "period"
             amount := ← f.required "amount"
             received := ← f.required "received"
             precisionLoss := ← f.required "precision_loss" }

instance : ToJson ClaimReceipt where
  toJson r := .ofMembers
    [("claimant", toJson r.claimant),
      ("period", toJson r.period),
      ("amount", toJson r.amount),
      ("received", toJson r.received),
      ("precision_loss", toJson r.precisionLoss)]

instance : ToJson RecoveryDesignation where
  toJson r := .ofMembers
    [("address", toJson r.address), ("designated_at", toJson r.designatedAt)]

/-- The roles are only handed out, and so is the halt. -/
instance : ToJson Governance where
  toJson g := .ofMembers
    [("authority", toJson g.authority),
      ("pending_authority", toJson g.pendingAuthority),
      ("guardian", toJson g.guardian),
      ("guardian_ever_configured", toJson g.guardianEverConfigured),
      ("strikes", toJson g.strikes),
      ("strike_reset_requested_at", toJson g.strikeResetRequestedAt),
      ("last_authority_action", toJson g.lastAuthorityAction),
      ("recovery", toJson g.recovery),
      ("config", toJson g.policy)]

instance : ToJson HaltSwitch := ⟨fun h => .ofMembers [("halted_at", toJson h.haltedAt)]⟩

end Settlement
