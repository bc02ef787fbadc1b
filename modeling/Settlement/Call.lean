import Settlement.Identity
import Settlement.Time.Basic

namespace Settlement

/-- Who makes a request, and when. The ledger reads no clock: every request brings the time and the
block that its deadlines are compared with. -/
structure CallContext where
  caller : Address
  now : Timestamp
  /-- The height of the chain. -/
  block : Count
deriving DecidableEq

namespace CallContext

/-- The same time and block with another caller, for asking what somebody else would be answered. -/
def withCaller (ctx : CallContext) (caller : Address) : CallContext := { ctx with caller }

/-- The time since `start` as a clock tells it, zero if `start` is still to come. -/
def elapsedSince (ctx : CallContext) (start : Timestamp) : Span := ctx.now.since start

/-- The time up to `deadline` as a clock tells it, zero if it has passed. Refusals that depend on
time report it. -/
def remainingUntil (ctx : CallContext) (deadline : Timestamp) : Span := deadline.since ctx.now

end CallContext

end Settlement
