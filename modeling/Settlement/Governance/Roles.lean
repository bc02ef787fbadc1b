import Settlement.Call
import Settlement.Policy

namespace Settlement

/-- A successor named by the guardian. Any act of the authority makes it void. -/
structure RecoveryDesignation where
  address : Address
  designatedAt : Timestamp
deriving DecidableEq

/-- The roles, the strikes and the pending changes to them. The authority runs the protocol; every
replaced root is a strike against it, and too many strikes revoke it. The guardian watches the
authority. -/
structure Governance where
  authority : Address
  pendingAuthority : Option Address
  guardian : Option Address
  /-- Whether there has ever been a guardian. It is never unset. -/
  guardianEverConfigured : Bool
  strikes : Word 32
  strikeResetRequestedAt : Option Timestamp
  lastAuthorityAction : Timestamp
  recovery : Option RecoveryDesignation
  policy : RecoveryPolicy
deriving DecidableEq

namespace Governance

/-- The roles at the start. Nobody holds the zero address, so it can be neither of the two. -/
def start (policy : RecoveryPolicy) (authority : Address) (guardian : Option Address)
    (now : Timestamp) : Result Governance := do
  require (¬ authority.isZero) (.zeroAddress "authority")
  require (guardian ≠ some .zero) (.zeroAddress "guardian")
  return { authority
           pendingAuthority := none
           guardian
           guardianEverConfigured := guardian.isSome
           strikes := 0
           strikeResetRequestedAt := none
           lastAuthorityAction := now
           recovery := none
           policy }

/-- Whether there are so many strikes that the authority is revoked. -/
def isRevoked (g : Governance) : Bool := g.policy.maxStrikes ≤ g.strikes

/-- The caller is the authority, and that is not revoked. Who is not the authority is told so,
revoked or not. -/
def checkAuthority (g : Governance) (caller : Address) : Result Unit := do
  require (caller = g.authority) (.notAuthority caller)
  require (¬ g.isRevoked) (.authorityRevoked g.strikes)

/-- The caller is the guardian. Without a guardian nobody is. -/
def checkGuardian (g : Governance) (caller : Address) : Result Unit :=
  require (g.guardian = some caller) (.notGuardian caller)

/-- The authority has acted. That ends its silence and voids the naming of a successor. -/
def touch (g : Governance) (now : Timestamp) : Governance :=
  { g with lastAuthorityAction := now, recovery := none }

/-- Adds a strike, up to the largest number. A replaced root is one. -/
def strike (g : Governance) : Governance := { g with strikes := g.strikes.satAdd 1 }

/-- The guardian asks to have the strikes cleared. A later request takes the place of an earlier
one. -/
def requestStrikeReset (g : Governance) (ctx : CallContext) : Result Governance := do
  g.checkGuardian ctx.caller
  return { g with strikeResetRequestedAt := some ctx.now }

/-- The guardian clears the strikes, when the delay after asking is over. The request is used up by
that. -/
def executeStrikeReset (g : Governance) (ctx : CallContext) : Result Governance := do
  g.checkGuardian ctx.caller
  let requested ← orRefuse (.strikeResetNotReady "no reset requested") g.strikeResetRequestedAt
  let readyAt := requested.after g.policy.strikeResetDelay
  let remaining := ctx.remainingUntil readyAt
  require (readyAt ≤ ctx.now) (.strikeResetNotReady s!"{remaining} remaining")
  return { g with strikes := 0, strikeResetRequestedAt := none }

/-- The authority appoints a guardian, in place of the one before if there is one. -/
def setGuardian (g : Governance) (ctx : CallContext) (guardian : Address) : Result Governance := do
  g.checkAuthority ctx.caller
  require (¬ guardian.isZero) (.zeroAddress "guardian")
  return { g with guardian := some guardian, guardianEverConfigured := true }.touch ctx.now

/-- The authority offers its role to another address. A later offer takes the place of an earlier
one. -/
def proposeAuthority (g : Governance) (ctx : CallContext) (address : Address) :
    Result Governance := do
  g.checkAuthority ctx.caller
  require (¬ address.isZero) (.zeroAddress "authority")
  return { g with pendingAuthority := some address }.touch ctx.now

/-- The address to which it was offered takes the role of the authority. The strikes stay. -/
def acceptAuthority (g : Governance) (ctx : CallContext) : Result Governance := do
  require (g.pendingAuthority = some ctx.caller) (.notPendingAuthority ctx.caller)
  return { g with authority := ctx.caller, pendingAuthority := none }.touch ctx.now

/-- The authority has been silent for the liveness window, so that a successor may be named or may
take over. -/
def checkInactive (g : Governance) (ctx : CallContext) : Result Unit :=
  let readyAt := g.lastAuthorityAction.after g.policy.livenessWindow
  require (readyAt ≤ ctx.now) (.recoveryNotReady (ctx.remainingUntil readyAt))

/-- The guardian names a successor of a silent authority, in place of one named before. -/
def designateRecovery (g : Governance) (ctx : CallContext) (address : Address) :
    Result Governance := do
  g.checkGuardian ctx.caller
  require (¬ address.isZero) (.zeroAddress "recovery")
  g.checkInactive ctx
  return { g with recovery := some ⟨address, ctx.now⟩ }

/-- The successor takes over when the silence has gone on for another liveness window after the
naming. The strikes, the offers and the requests of the old authority go with it. -/
def claimRecovery (g : Governance) (ctx : CallContext) : Result Governance := do
  let named ← orRefuse (.notRecovery ctx.caller) (g.recovery.filter (·.address = ctx.caller))
  g.checkInactive ctx
  let readyAt := named.designatedAt.after g.policy.livenessWindow
  require (readyAt ≤ ctx.now) (.recoveryNotReady (ctx.remainingUntil readyAt))
  return { g with
    authority := named.address
    pendingAuthority := none
    strikes := 0
    strikeResetRequestedAt := none
    recovery := none
    lastAuthorityAction := ctx.now }

end Governance

end Settlement
