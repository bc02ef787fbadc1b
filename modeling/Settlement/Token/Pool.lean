import Settlement.Policy
import Settlement.Token.Basic

namespace Settlement

/-- A token with balances and a pool, which burns a fee of every movement. The fee is a fraction of
the amount, rounded down. An address without a row has nothing. -/
structure PoolToken where
  balances : Table Address Amount := .empty
  pool : Amount := 0
  /-- The fee of a movement in hundredths of a percent. -/
  feeBps : Nat := 0
  feeBps_le : feeBps ≤ bpsDenominator := by decide
  /-- All fees so far. -/
  burned : Amount := 0
  /-- Whether movements fail. -/
  failing : Bool := false

namespace PoolToken

/-- A token that nobody has, without a fee and with nothing in its pool. -/
def empty : PoolToken := {}

instance : Inhabited PoolToken := ⟨empty⟩

/-- What an address has outside of the pool, which is nothing unless something was booked for it. -/
def balanceOf (t : PoolToken) (who : Address) : Amount := t.balances.getD who 0

/-- The token with this balance; a balance of zero has no row. -/
def setBalance (t : PoolToken) (who : Address) (amount : Amount) : PoolToken :=
  { t with balances :=
      if amount = 0 then t.balances.erase who else t.balances.insert who amount }

/-- The token with this fee, the whole amount at most. -/
def setFee (t : PoolToken) (bps : Word 32) : PoolToken :=
  { t with feeBps := min bps.val bpsDenominator, feeBps_le := Nat.min_le_right _ _ }

/-- A token that has nothing and burns this fee, which is the whole amount at most. -/
def withFee (bps : Word 32) : PoolToken := empty.setFee bps

/-- The token whose movements fail from now on, or no longer do. -/
def setFailing (t : PoolToken) (failing : Bool) : PoolToken := { t with failing }

/-- The fees of the whole ten-thousands and of the rest add up to the amount at most. -/
theorem fee_le (amount bps : Nat) (h : bps ≤ bpsDenominator) :
    amount / bpsDenominator * bps + amount % bpsDenominator * bps / bpsDenominator ≤ amount := by
  have hwhole : amount / bpsDenominator * bps ≤ amount / bpsDenominator * bpsDenominator :=
    Nat.mul_le_mul_left _ h
  have hrest : amount % bpsDenominator * bps / bpsDenominator ≤ amount % bpsDenominator := by
    apply Nat.div_le_of_le_mul
    rw [Nat.mul_comm]
    exact Nat.mul_le_mul_right _ h
  have hsplit := Nat.div_add_mod amount bpsDenominator
  rw [Nat.mul_comm] at hsplit
  omega

/-- The fee of moving an amount. It is computed in two parts so that no product exceeds the width of
an amount. -/
def feeOf (t : PoolToken) (amount : Amount) : Amount :=
  ⟨amount.val / bpsDenominator * t.feeBps + amount.val % bpsDenominator * t.feeBps / bpsDenominator,
    Nat.lt_of_le_of_lt (fee_le _ _ t.feeBps_le) amount.isLt⟩

/-- Creates an amount for an address. It is the only way in which a balance arises outside of
movements. -/
def mint (t : PoolToken) (who : Address) (amount : Amount) : Result PoolToken := do
  let balance ← orRefuse (.overflow "token mint") ((t.balanceOf who).add? amount)
  return t.setBalance who balance

/-- Creates one amount after the other, up to the first that is refused. -/
def mintAll (t : PoolToken) : List (Address × Amount) → Result Unit × PoolToken
  | [] => (.ok (), t)
  | (who, amount) :: rest =>
    match t.mint who amount with
    | .ok t => t.mintAll rest
    | .error e => (.error e, t)

/-- Refuses every movement while the token is set to fail. Taking a transfer back is not such a
movement. -/
def checkLive (t : PoolToken) : Result Unit := require (¬ t.failing) (.transferFailed "token paused")

/-- Moves an amount from an address into the pool, which gets what the fee leaves of it. The fee is
burned. -/
def collect (t : PoolToken) (source : Address) (amount : Amount) : Result (Amount × PoolToken) := do
  t.checkLive
  let balance := t.balanceOf source
  require (amount ≤ balance)
    (.transferFailed s!"{source} holds {balance.val}, needs {amount.val}")
  let fee := t.feeOf amount
  let received := amount.satSub fee
  let pool ← orRefuse (.overflow "token pool") (t.pool.add? received)
  return (received,
    { t.setBalance source (balance.satSub amount) with pool, burned := t.burned.satAdd fee })

/-- Moves an amount from the pool to an address, which gets what the fee leaves of it. The pool is
charged the whole amount. -/
def transfer (t : PoolToken) (recipient : Address) (amount : Amount) :
    Result (TransferReceipt × PoolToken) := do
  t.checkLive
  require (amount ≤ t.pool) (.transferFailed s!"pool holds {t.pool.val}, needs {amount.val}")
  let fee := t.feeOf amount
  let received := amount.satSub fee
  let balance ← orRefuse (.overflow "token balance") ((t.balanceOf recipient).add? received)
  return (⟨recipient, amount, received⟩,
    { t.setBalance recipient balance with
      pool := t.pool.satSub amount
      burned := t.burned.satAdd fee })

/-- Takes a transfer back: the recipient returns what it got, and the pool gets the whole amount,
since the fee is returned as well. -/
def revert (t : PoolToken) (receipt : TransferReceipt) : Result PoolToken := do
  let recipient := receipt.recipient
  let received := receipt.received
  let balance := t.balanceOf recipient
  require (received ≤ balance)
    (.transferFailed s!"cannot revert: {recipient} holds {balance.val}, received {received.val}")
  let pool ← orRefuse (.overflow "token pool") (t.pool.add? receipt.sent)
  return { t.setBalance recipient (balance.satSub received) with
    pool
    burned := t.burned.satSub receipt.shortfall }

end PoolToken

/-- The answer and the new state of a movement that changes nothing when it fails. -/
def unlessRefused {α τ : Type} (state : τ) : Result (α × τ) → Result α × τ
  | .ok (answer, state) => (.ok answer, state)
  | .error e => (.error e, state)

instance : PayoutToken PoolToken where
  collect t source amount := unlessRefused t (t.collect source amount)
  transfer t recipient amount := unlessRefused t (t.transfer recipient amount)
  revert t receipt := unlessRefused t ((t.revert receipt).map ((), ·))

end Settlement
