import Settlement.Error

namespace Settlement

/-- What became of a transfer out of the pool. A token may deliver less than was sent. -/
structure TransferReceipt where
  recipient : Address
  /-- What left the pool. -/
  sent : Amount
  /-- What the recipient got. -/
  received : Amount
deriving DecidableEq

/-- What was lost on the way. It is zero for a receipt that reports more than was sent. -/
def TransferReceipt.shortfall (r : TransferReceipt) : Amount := r.sent.satSub r.received

/-- What the ledger asks of a token with states of type `τ`. The ledger keeps all deposits in one
pool and relies on what the token reports. Every movement gives the state after it, also when it
fails, for a token may fail or refuse to take a transfer back and still have changed. -/
class PayoutToken (τ : Type) where
  /-- Pulls an amount from an address into the pool, and tells how much arrived. -/
  collect : τ → Address → Amount → Result Amount × τ
  /-- Pays an amount from the pool. -/
  transfer : τ → Address → Amount → Result TransferReceipt × τ
  /-- Takes back a transfer. -/
  revert : τ → TransferReceipt → Result Unit × τ

end Settlement
