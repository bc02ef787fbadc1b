import Settlement.Signature.Ed25519
import Settlement.Error

namespace Settlement

/-- A payment from one participant to another, as its payer describes it before signing. -/
structure Operation where
  id : OperationId
  payer : Address
  payee : Address
  amount : Amount
  /-- Whether it only counts towards the current period. -/
  periodBound : Bool
  /-- Tells apart the operations of one payer. -/
  nonce : Count
  submittedAt : Timestamp
deriving DecidableEq

namespace Operation

/-- The 105 bytes that are signed. Their layout is fixed, so that no two different operations with
the same time of submission are signed alike; the time itself is not signed. -/
def payload (op : Operation) : Bytes :=
  op.id.bytes ++ op.payer.bytes ++ op.payee.bytes ++ littleEndian 16 op.amount.val ++
    [if op.periodBound then 1 else 0] ++ littleEndian 8 op.nonce.val

end Operation

/-- A payment with its signature, which is any byte string until it is checked. -/
structure SignedOperation where
  operation : Operation
  signature : Bytes
deriving DecidableEq

/-- The ways in which an operation is settled. An operation that is bound to the period is weak. -/
inductive OperationKind
  /-- Counted in the current period, without an update for each participant. -/
  | weak
  /-- Settled on its own. -/
  | strong
deriving DecidableEq

def OperationKind.toText : OperationKind → String
  | .weak => "WEAK"
  | .strong => "STRONG"

instance : ToString OperationKind := ⟨OperationKind.toText⟩

namespace SignedOperation

def isPeriodBound (op : SignedOperation) : Bool := op.operation.periodBound

/-- The way in which this operation is settled, which the flag that its payer signed decides. -/
def kind (op : SignedOperation) : OperationKind := if op.isPeriodBound then .weak else .strong

end SignedOperation

/-- A check of whether a signature authorizes an operation. The relay takes it as a parameter. -/
abbrev Authorizer := Operation → Bytes → Result Unit

namespace Authorizer

/-- The signature is one by the key of the payer, over the payload of the operation. -/
def ed25519 : Authorizer := fun op signature =>
  require (Ed25519.verify op.payer.bytes op.payload signature) (.invalidSignature op.payer)

/-- Everything is authorized. For deployments where signatures are checked elsewhere. -/
def trusting : Authorizer := fun _ _ => .ok ()

end Authorizer

end Settlement
