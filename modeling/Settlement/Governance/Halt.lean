import Settlement.Governance.Roles

namespace Settlement

/-- Since when operations are halted, if they are. The authority raises the halt; the guardian lifts
it, or the authority if there has never been a guardian. -/
structure HaltSwitch where
  haltedAt : Option Timestamp := none
deriving DecidableEq

namespace HaltSwitch

instance : Inhabited HaltSwitch := ⟨{}⟩

def isHalted (h : HaltSwitch) : Bool := h.haltedAt.isSome

/-- Refuses what is not possible during a halt: what the authority does for a period, and claims.
Commitments to claims and disputes go on. -/
def checkNotHalted (h : HaltSwitch) : Result Unit := require (¬ h.isHalted) .halted

/-- Raises the halt. One that is raised already keeps its time. -/
def halt (h : HaltSwitch) (ctx : CallContext) (g : Governance) : Result HaltSwitch := do
  g.checkAuthority ctx.caller
  return ⟨some (h.haltedAt.getD ctx.now)⟩

/-- Lifts the halt, raised or not. Once there has been a guardian, only the guardian can. -/
def unhalt (_ : HaltSwitch) (ctx : CallContext) (g : Governance) : Result HaltSwitch := do
  if g.guardianEverConfigured then g.checkGuardian ctx.caller else g.checkAuthority ctx.caller
  return ⟨none⟩

end HaltSwitch

end Settlement
