import Settlement.Batch.Chunk

namespace Settlement

/-- What a scripted client does: which operations it accepts, which calls it fails and which it
answers with too many or too few results. Calls are counted from zero. -/
structure ClientScript where
  /-- An operation succeeds if its amount leaves `remainder` when divided by `modulus`. -/
  modulus : Amount := 1
  remainder : Amount := 0
  /-- The calls that fail. -/
  failing : List Nat := []
  /-- The first of the calls that all fail. -/
  failingFrom : Option Nat := none
  /-- By how many results an answer is too long. -/
  surplus : List (Nat × Int) := []

/-- A client that does what its script says and keeps a log of its calls, the last one first. A call
that fails is logged as well. -/
structure ScriptedClient where
  script : ClientScript := {}
  log : List (List SignedOperation) := []

namespace ScriptedClient

/-- The number of calls so far, failed ones included. The script goes by it. -/
def calls (c : ScriptedClient) : Nat := c.log.length

/-- Whether an operation succeeds, which goes by its amount. No operation does under a zero
modulus. -/
def accepts (s : ClientScript) (op : SignedOperation) : Bool :=
  s.modulus.val ≠ 0 && op.operation.amount.val % s.modulus.val = s.remainder.val

/-- The flags cut at the end, or extended by successes, to a length that is not negative. -/
def resize (flags : List Bool) (change : Int) : List Bool :=
  let length := ((flags.length : Int) + change).toNat
  flags.take length ++ List.replicate (length - flags.length) true

instance : SettlementClient ScriptedClient where
  settle c operations :=
    let call := c.calls
    let s := c.script
    let c := { c with log := operations :: c.log }
    let fails := s.failing.contains call || s.failingFrom.any (· ≤ call)
    if fails then (.error (.internal s!"reverted at call {call}"), c)
    else
      let flags := operations.map (accepts s)
      let changes := s.surplus.filter (·.1 = call)
      (.ok (changes.foldl (fun flags change => resize flags change.2) flags), c)

end ScriptedClient

end Settlement
