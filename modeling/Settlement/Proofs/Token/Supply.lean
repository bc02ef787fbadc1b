import Mathlib.Algebra.Order.BigOperators.Group.Finset
import Mathlib.Algebra.Ring.Nat
import Settlement.Proofs.Finite
import Settlement.Proofs.Token.Contract

namespace Settlement

/-- A call of the token: its creation, the settings of its owner, and its movements. -/
inductive TokenCall
  | mint (who : Address) (amount : Amount)
  | setFee (bps : Word 32)
  | setFailing (failing : Bool)
  | collect (source : Address) (amount : Amount)
  | transfer (recipient : Address) (amount : Amount)
  | revert (receipt : TransferReceipt)

/-- What a call of the token answers, if it is not refused. -/
inductive TokenAnswer
  | done
  | collected (received : Amount)
  | sent (receipt : TransferReceipt)
deriving DecidableEq

namespace PoolToken

variable {t t' : PoolToken} {who : Address} {amount received balance : Amount} {e : Error}
  {receipt : TransferReceipt}

/-- The answer to a call, and the token after it. A refused call leaves the token as it is. -/
def call (t : PoolToken) : TokenCall → Result TokenAnswer × PoolToken
  | .mint who amount => unlessRefused t ((t.mint who amount).map (.done, ·))
  | .setFee bps => (.ok .done, t.setFee bps)
  | .setFailing failing => (.ok .done, t.setFailing failing)
  | .collect source amount => (PayoutToken.collect t source amount).map (·.map .collected) id
  | .transfer recipient amount => (PayoutToken.transfer t recipient amount).map (·.map .sent) id
  | .revert receipt => (PayoutToken.revert t receipt).map (·.map fun _ => .done) id

/-- What a call does. It either changes the token as its case says or leaves it as it is, so what a
run preserves is proved case by case. -/
inductive Called (t : PoolToken) : TokenCall → Result TokenAnswer × PoolToken → Prop
  | refused {call : TokenCall} (e : Error) : Called t call (.error e, t)
  | minted {who : Address} {amount balance : Amount}
      (hbalance : (t.balanceOf who).add? amount = some balance) :
      Called t (.mint who amount) (.ok .done, t.setBalance who balance)
  | feeSet (bps : Word 32) : Called t (.setFee bps) (.ok .done, t.setFee bps)
  | failingSet (failing : Bool) :
      Called t (.setFailing failing) (.ok .done, t.setFailing failing)
  | collected {source : Address} {amount received : Amount} {t' : PoolToken}
      (h : PayoutToken.collect t source amount = (.ok received, t')) :
      Called t (.collect source amount) (.ok (.collected received), t')
  | sent {recipient : Address} {amount : Amount} {receipt : TransferReceipt} {t' : PoolToken}
      (h : PayoutToken.transfer t recipient amount = (.ok receipt, t')) :
      Called t (.transfer recipient amount) (.ok (.sent receipt), t')
  | takenBack {receipt : TransferReceipt} {t' : PoolToken}
      (h : PayoutToken.revert t receipt = (.ok (), t')) :
      Called t (.revert receipt) (.ok .done, t')

theorem called (t : PoolToken) (call : TokenCall) : Called t call (t.call call) := by
  cases call with
  | setFee bps => exact .feeSet bps
  | setFailing failing => exact .failingSet failing
  | mint who amount =>
    simp only [PoolToken.call, PoolToken.mint]
    cases hbalance : (t.balanceOf who).add? amount with
    | none => exact .refused _
    | some balance => exact .minted hbalance
  | collect source amount =>
    simp only [PoolToken.call]
    rcases h : PayoutToken.collect t source amount with ⟨e | received, t'⟩
    · obtain rfl := (unlessRefused_eq_error_iff.1 h).2
      exact .refused e
    · exact .collected h
  | transfer recipient amount =>
    simp only [PoolToken.call]
    rcases h : PayoutToken.transfer t recipient amount with ⟨e | receipt, t'⟩
    · obtain rfl := (unlessRefused_eq_error_iff.1 h).2
      exact .refused e
    · exact .sent h
  | revert receipt =>
    simp only [PoolToken.call]
    rcases h : PayoutToken.revert t receipt with ⟨e | _, t'⟩
    · obtain rfl := (unlessRefused_eq_error_iff.1 h).2
      exact .refused e
    · exact .takenBack h

theorem eq_of_call_error {call : TokenCall} (h : t.call call = (.error e, t')) : t' = t := by
  have hcalled := t.called call
  rw [h] at hcalled
  cases hcalled
  rfl

theorem le_balanceOf_of_collect (h : PayoutToken.collect t who amount = (.ok received, t')) :
    amount ≤ t.balanceOf who := by
  obtain ⟨_, -, h⟩ := Result.bind_eq_ok_iff.1 (unlessRefused_eq_ok_iff.1 h)
  obtain ⟨_, hcovered, -⟩ := Result.bind_eq_ok_iff.1 h
  exact require_eq_ok_iff.1 hcovered

theorem revert_eq_ok (h : PayoutToken.revert t receipt = (.ok (), t')) :
    receipt.received ≤ t.balanceOf receipt.recipient ∧
      ∃ pool, t.pool.add? receipt.sent = some pool ∧
        t' = { t.setBalance receipt.recipient
            ((t.balanceOf receipt.recipient).satSub receipt.received) with
          pool, burned := t.burned.satSub receipt.shortfall } := by
  obtain ⟨_, hback, heq⟩ := Result.map_eq_ok_iff.1 (unlessRefused_eq_ok_iff.1 h)
  obtain ⟨-, rfl⟩ := Prod.mk.injEq .. ▸ heq
  obtain ⟨_, hcovered, hback⟩ := Result.bind_eq_ok_iff.1 hback
  obtain ⟨pool, hpool, hback⟩ := Result.bind_eq_ok_iff.1 hback
  obtain rfl := Result.pure_eq_ok_iff.1 hback
  exact ⟨require_eq_ok_iff.1 hcovered, pool, orRefuse_eq_ok_iff.1 hpool, rfl⟩

theorem val_feeOf (t : PoolToken) (amount : Amount) :
    (t.feeOf amount).val = amount.val * t.feeBps / bpsDenominator := by
  have hsplit : amount.val * t.feeBps =
      bpsDenominator * (amount.val / bpsDenominator * t.feeBps) +
        amount.val % bpsDenominator * t.feeBps := by
    rw [← Nat.mul_assoc, ← Nat.add_mul, Nat.div_add_mod]
  rw [hsplit, Nat.mul_add_div (by decide)]
  rfl

/-- What all addresses have together. There are finitely many addresses, so the sum is over all of
them. -/
def held (t : PoolToken) : Nat := ∑ who, (t.balanceOf who).val

/-- Everything there is of the token, and what was burned of it. -/
def supply (t : PoolToken) : Nat := t.held + t.pool.val + t.burned.val

theorem held_setBalance (t : PoolToken) (who : Address) (amount : Amount) :
    (t.setBalance who amount).held + (t.balanceOf who).val = t.held + amount.val := by
  have hself : ((t.setBalance who amount).balanceOf who).val = amount.val := by
    rw [balanceOf_setBalance, if_pos rfl]
  have hother (other : Address) (hne : other ≠ who) :
      ((t.setBalance who amount).balanceOf other).val = (t.balanceOf other).val := by
    rw [balanceOf_setBalance, if_neg hne]
  rw [← hself]
  exact sum_add_of_eq_off (fun other => ((t.setBalance who amount).balanceOf other).val)
    (fun other => (t.balanceOf other).val) who hother

theorem balanceOf_le_held (t : PoolToken) (who : Address) : (t.balanceOf who).val ≤ t.held :=
  Finset.single_le_sum (f := fun other => (t.balanceOf other).val) (fun _ _ => Nat.zero_le _)
    (Finset.mem_univ who)

theorem supply_of_mint (hbalance : (t.balanceOf who).add? amount = some balance) :
    (t.setBalance who balance).supply = t.supply + amount.val := by
  have hheld := t.held_setBalance who balance
  have hsum := Word.add?_eq_some_iff.1 hbalance
  change (t.setBalance who balance).held + t.pool.val + t.burned.val =
    t.held + t.pool.val + t.burned.val + amount.val
  omega

theorem burned_of_collect (h : PayoutToken.collect t who amount = (.ok received, t'))
    (hfits : t.supply < 2 ^ 128) :
    received.val + (t.feeOf amount).val = amount.val ∧
      t'.burned.val = t.burned.val + (t.feeOf amount).val := by
  have hcovered := Word.le_def.1 (le_balanceOf_of_collect h)
  have hheld := t.balanceOf_le_held who
  have hfee := t.feeOf_le amount
  obtain ⟨rfl, pool, -, rfl⟩ := collect_eq_ok h
  unfold supply at hfits
  refine ⟨?_, Word.val_satAdd_of_lt (by omega)⟩
  rw [Word.val_satSub]
  omega

/-- A collection conserves the supply: what is taken from one balance is in the pool or burned. -/
theorem supply_of_collect (h : PayoutToken.collect t who amount = (.ok received, t'))
    (hfits : t.supply < 2 ^ 128) : t'.supply = t.supply := by
  obtain ⟨hreceived, hburned⟩ := burned_of_collect h hfits
  have hpool := pool_of_collect h
  have hcovered := Word.le_def.1 (le_balanceOf_of_collect h)
  have hheld := t.held_setBalance who ((t.balanceOf who).satSub amount)
  rw [Word.val_satSub] at hheld
  have hafter : t'.held = (t.setBalance who ((t.balanceOf who).satSub amount)).held := by
    obtain ⟨-, pool, -, rfl⟩ := collect_eq_ok h
    rfl
  unfold supply
  omega

theorem burned_of_transfer (h : PayoutToken.transfer t who amount = (.ok receipt, t'))
    (hfits : t.supply < 2 ^ 128) :
    receipt.sent = amount ∧ receipt.received.val + (t.feeOf amount).val = amount.val ∧
      t'.burned.val = t.burned.val + (t.feeOf amount).val := by
  obtain ⟨rfl, hpool, balance, -, rfl⟩ := transfer_eq_ok h
  have hfee := t.feeOf_le amount
  rw [Word.le_def] at hpool
  unfold supply at hfits
  refine ⟨rfl, ?_, Word.val_satAdd_of_lt (by omega)⟩
  rw [Word.val_satSub]
  omega

/-- A transfer conserves the supply: what is taken from the pool is in one balance or burned. -/
theorem supply_of_transfer (h : PayoutToken.transfer t who amount = (.ok receipt, t'))
    (hfits : t.supply < 2 ^ 128) : t'.supply = t.supply := by
  obtain ⟨-, hreceived, hburned⟩ := burned_of_transfer h hfits
  have hpool := pool_of_transfer h
  obtain ⟨-, -, balance, hbalance, rfl⟩ := transfer_eq_ok h
  have hheld := t.held_setBalance who balance
  have hsum := Word.add?_eq_some_iff.1 hbalance
  change (t.setBalance who balance).held + _ + _ = t.held + t.pool.val + t.burned.val
  omega

/-- Taking a transfer back conserves the supply as long as its fee is among what was burned. -/
theorem supply_of_revert (h : PayoutToken.revert t receipt = (.ok (), t'))
    (hreceived : receipt.received ≤ receipt.sent)
    (hburned : receipt.shortfall.val ≤ t.burned.val) : t'.supply = t.supply := by
  obtain ⟨hcovered, pool, hpool, rfl⟩ := revert_eq_ok h
  have hheld := t.held_setBalance receipt.recipient
    ((t.balanceOf receipt.recipient).satSub receipt.received)
  have hsum := Word.add?_eq_some_iff.1 hpool
  change (t.setBalance _ _).held + pool.val + (t.burned.val - receipt.shortfall.val) =
    t.held + t.pool.val + t.burned.val
  rw [Word.val_satSub] at hheld
  simp only [TransferReceipt.shortfall, Word.val_satSub, Word.le_def] at *
  omega

/-- This amount is charged its exact share, rounded down: no step of computing the fee overflows,
and a movement of the amount costs its fee and burns it. -/
structure Charges (t : PoolToken) (amount : Amount) : Prop where
  fee : (t.feeOf amount).val = amount.val * t.feeBps / bpsDenominator
  whole_fits : amount.val / bpsDenominator * t.feeBps < 2 ^ 128
  rest_fits : amount.val % bpsDenominator * t.feeBps < 2 ^ 128
  fits : amount.val / bpsDenominator * t.feeBps +
    amount.val % bpsDenominator * t.feeBps / bpsDenominator < 2 ^ 128
  collected : ∀ source received t', t.call (.collect source amount) = (.ok (.collected received), t') →
    received.val + (t.feeOf amount).val = amount.val ∧
      t'.burned.val = t.burned.val + (t.feeOf amount).val
  sent : ∀ recipient receipt t', t.call (.transfer recipient amount) = (.ok (.sent receipt), t') →
    receipt.sent = amount ∧ receipt.received.val + (t.feeOf amount).val = amount.val ∧
      t'.burned.val = t.burned.val + (t.feeOf amount).val

/-- As long as the supply fits into one amount no sum is ever cut off, and every amount is charged
its exact share. -/
theorem charges_of_supply_lt (hfits : t.supply < 2 ^ 128) (amount : Amount) :
    t.Charges amount where
  fee := t.val_feeOf amount
  whole_fits := Nat.lt_of_le_of_lt (Nat.le_add_right _ _) (t.feeOf amount).isLt
  rest_fits := by
    have hrest : amount.val % bpsDenominator * t.feeBps ≤ bpsDenominator * bpsDenominator :=
      Nat.mul_le_mul (Nat.le_of_lt (Nat.mod_lt _ (by decide))) t.feeBps_le
    exact Nat.lt_of_le_of_lt hrest (by decide)
  fits := (t.feeOf amount).isLt
  collected source received t' h := by
    have hcalled := t.called (.collect source amount)
    rw [h] at hcalled
    cases hcalled with
    | collected hcollect => exact burned_of_collect hcollect hfits
  sent recipient receipt t' h := by
    have hcalled := t.called (.transfer recipient amount)
    rw [h] at hcalled
    cases hcalled with
    | sent hsent => exact burned_of_transfer hsent hfits

theorem rows_setBalance (hrows : ∀ who, t.balances.get? who ≠ some 0) (who : Address)
    (amount : Amount) (other : Address) :
    (t.setBalance who amount).balances.get? other ≠ some 0 := by
  rw [get?_setBalance]
  split
  · split
    · exact nofun
    · next hne => exact fun heq => hne (Option.some.inj heq)
  · exact hrows other

theorem rows_of_called {call : TokenCall} {outcome : Result TokenAnswer × PoolToken}
    (hrows : ∀ who, t.balances.get? who ≠ some 0) (hcalled : Called t call outcome) :
    ∀ who, outcome.2.balances.get? who ≠ some 0 := by
  cases hcalled with
  | refused e => exact hrows
  | minted hbalance => exact rows_setBalance hrows _ _
  | feeSet bps => exact hrows
  | failingSet failing => exact hrows
  | collected h =>
    obtain ⟨-, pool, -, rfl⟩ := collect_eq_ok h
    exact rows_setBalance hrows _ _
  | sent h =>
    obtain ⟨-, -, balance, -, rfl⟩ := transfer_eq_ok h
    exact rows_setBalance hrows _ _
  | takenBack h =>
    obtain ⟨-, pool, -, rfl⟩ := revert_eq_ok h
    exact rows_setBalance hrows _ _

end PoolToken

/-- What a call creates when it gets this answer. Only what is minted is created. -/
def TokenCall.created : TokenCall → Result TokenAnswer → Nat
  | .mint _ amount, .ok _ => amount.val
  | _, _ => 0

/-- The transfers that may still be taken back after a call that gets this answer. -/
def TokenCall.pending (before : List TransferReceipt) :
    TokenCall → Result TokenAnswer → List TransferReceipt
  | .revert receipt, .ok _ => before.erase receipt
  | _, .ok (.sent receipt) => receipt :: before
  | _, _ => before

namespace TokenCall

theorem created_error (call : TokenCall) (e : Error) : call.created (.error e) = 0 := by
  cases call <;> rfl

theorem pending_error (before : List TransferReceipt) (call : TokenCall) (e : Error) :
    call.pending before (.error e) = before := by
  cases call <;> rfl

end TokenCall

/-- A token in use, with what was created of it and what may be taken back. -/
structure Circulation where
  token : PoolToken
  /-- Everything that was created of the token. -/
  minted : Nat := 0
  /-- The transfers that were not taken back. -/
  pending : List TransferReceipt := []

namespace Circulation

/-- A new token with this fee, of which nothing was created yet. -/
def fresh (bps : Word 32) : Circulation := { token := .withFee bps }

def next (c : Circulation) (call : TokenCall) : Circulation where
  token := (c.token.call call).2
  minted := c.minted + call.created (c.token.call call).1
  pending := call.pending c.pending (c.token.call call).1

def after (c : Circulation) : List TokenCall → Circulation
  | [] => c
  | call :: rest => (c.next call).after rest

/-- Only a transfer that was made and not taken back is taken back. -/
def Allows (c : Circulation) : TokenCall → Prop
  | .revert receipt => receipt ∈ c.pending
  | _ => True

instance (c : Circulation) (call : TokenCall) : Decidable (c.Allows call) := by
  cases call <;> unfold Allows <;> infer_instance

/-- Every call of a run is allowed when its turn comes. -/
def AllowsAll (c : Circulation) : List TokenCall → Prop
  | [] => True
  | call :: rest => c.Allows call ∧ (c.next call).AllowsAll rest

instance decidableAllowsAll (c : Circulation) : (calls : List TokenCall) →
    Decidable (c.AllowsAll calls)
  | [] => .isTrue trivial
  | call :: rest =>
    haveI := decidableAllowsAll (c.next call) rest
    inferInstanceAs (Decidable (_ ∧ _))

/-- Everything that was created is accounted for, and what was burned covers the fees of all
transfers that may still be taken back. -/
structure Balanced (c : Circulation) : Prop where
  supply : c.token.supply = c.minted
  received : ∀ receipt ∈ c.pending, receipt.received ≤ receipt.sent
  burned : (c.pending.map (·.shortfall.val)).sum ≤ c.token.burned.val
  rows : ∀ who, c.token.balances.get? who ≠ some 0

variable {c : Circulation} {call : TokenCall}

theorem minted_le_next (c : Circulation) (call : TokenCall) : c.minted ≤ (c.next call).minted :=
  Nat.le_add_right _ _

/-- A run takes back nothing that was created, so a bound on what is created in the end is one on
what is created on the way. -/
theorem minted_le_after (c : Circulation) (calls : List TokenCall) :
    c.minted ≤ (c.after calls).minted := by
  induction calls generalizing c with
  | nil => exact Nat.le_refl _
  | cons call rest ih => exact Nat.le_trans (c.minted_le_next call) (ih (c.next call))

theorem held_fresh (bps : Word 32) : (fresh bps).token.held = 0 :=
  Finset.sum_eq_zero fun _ _ => rfl

theorem balanced_fresh (bps : Word 32) : (fresh bps).Balanced where
  supply := by
    unfold PoolToken.supply
    rw [held_fresh]
    rfl
  received := nofun
  burned := Nat.zero_le _
  rows := fun _ => nofun

/-- A call keeps a token balanced, as long as all that was created fits into one amount. -/
theorem Balanced.called {outcome : Result TokenAnswer × PoolToken} (h : c.Balanced)
    (hallowed : c.Allows call) (hcalled : PoolToken.Called c.token call outcome)
    (hfits : c.minted < 2 ^ 128) :
    Balanced ⟨outcome.2, c.minted + call.created outcome.1, call.pending c.pending outcome.1⟩ := by
  have hrows := PoolToken.rows_of_called h.rows hcalled
  have hroom : c.token.supply < 2 ^ 128 := h.supply ▸ hfits
  have hburned := h.burned
  cases hcalled with
  | refused e =>
    rw [TokenCall.created_error, TokenCall.pending_error]
    exact h
  | minted hbalance =>
    have hsupply := (PoolToken.supply_of_mint hbalance).trans (congrArg (· + _) h.supply)
    exact ⟨hsupply, h.received, h.burned, hrows⟩
  | feeSet bps => exact ⟨h.supply, h.received, h.burned, hrows⟩
  | failingSet failing => exact ⟨h.supply, h.received, h.burned, hrows⟩
  | @collected source amount received token hcollect =>
    have hsupply := (PoolToken.supply_of_collect hcollect hroom).trans h.supply
    obtain ⟨-, hfee⟩ := PoolToken.burned_of_collect hcollect hroom
    refine ⟨hsupply, h.received, ?_, hrows⟩
    change (c.pending.map _).sum ≤ token.burned.val
    omega
  | @sent recipient amount receipt token hsent =>
    have hsupply := (PoolToken.supply_of_transfer hsent hroom).trans h.supply
    obtain ⟨rfl, hreceived, hfee⟩ := PoolToken.burned_of_transfer hsent hroom
    refine ⟨hsupply, List.forall_mem_cons.2 ⟨?_, h.received⟩, ?_, hrows⟩
    · exact Word.le_def.2 (Nat.le.intro hreceived)
    · change ((receipt :: c.pending).map _).sum ≤ token.burned.val
      rw [List.map_cons, List.sum_cons, TransferReceipt.shortfall, Word.val_satSub]
      omega
  | @takenBack receipt token hback =>
    have hpending : receipt ∈ c.pending := hallowed
    have hsplit := List.sum_map_erase (·.shortfall.val) hpending
    have hsupply := PoolToken.supply_of_revert hback (h.received receipt hpending) (by omega)
    have hrest (other : TransferReceipt) (hmem : other ∈ c.pending.erase receipt) :
        other.received ≤ other.sent := h.received other (List.mem_of_mem_erase hmem)
    refine ⟨hsupply.trans h.supply, hrest, ?_, hrows⟩
    obtain ⟨-, pool, -, rfl⟩ := PoolToken.revert_eq_ok hback
    change ((c.pending.erase receipt).map _).sum ≤ c.token.burned.val - receipt.shortfall.val
    omega

/-- A run of calls that are allowed keeps the supply balanced, by induction on the calls. -/
theorem Balanced.after (h : c.Balanced) {calls : List TokenCall} (hallowed : c.AllowsAll calls)
    (hfits : (c.after calls).minted < 2 ^ 128) : (c.after calls).Balanced := by
  induction calls generalizing c with
  | nil => exact h
  | cons call rest ih =>
    have hbefore := Nat.le_trans (c.minted_le_next call) ((c.next call).minted_le_after rest)
    have hnext : (c.next call).Balanced :=
      h.called hallowed.1 (c.token.called call) (Nat.lt_of_le_of_lt hbefore hfits)
    exact ih hnext hallowed.2 hfits

/-- In a balanced state the books are in order, so a transfer is taken back without a trace. -/
theorem Balanced.revert_transfer (h : c.Balanced) (hfits : c.minted < 2 ^ 128)
    {recipient : Address} {amount : Amount} {receipt : TransferReceipt} {sent : PoolToken}
    (hsent : c.token.call (.transfer recipient amount) = (.ok (.sent receipt), sent)) :
    sent.call (.revert receipt) = (.ok .done, c.token) := by
  have htidy : c.token.Tidy := by
    refine ⟨h.rows, ?_⟩
    have hsupply := h.supply
    unfold PoolToken.supply at hsupply
    omega
  have hcalled := c.token.called (.transfer recipient amount)
  rw [hsent] at hcalled
  cases hcalled with
  | sent htransfer =>
    have hback := PoolToken.revert_of_transfer htransfer
    have hrestored := (PoolToken.honours htidy).revert_transfer _ _ _ _ _ htransfer hback
    rw [PoolToken.call, hback, hrestored]
    rfl

/-- The token conserves its supply. After every run of calls on a new token that creates no more
than an amount can hold and takes back only transfers that are still pending: what all addresses
have, the pool and what was burned add up to what was created; a call that is refused changes
nothing; every amount is charged its exact share, rounded down; and a transfer taken back at once
always succeeds and leaves the token as it was, every balance, the pool and what was burned. -/
theorem supply_eq_minted (bps : Word 32) (calls : List TokenCall)
    (hallowed : (fresh bps).AllowsAll calls)
    (hfits : ((fresh bps).after calls).minted < 2 ^ 128) :
    let c := (fresh bps).after calls
    ∑ who, (c.token.balanceOf who).val + c.token.pool.val + c.token.burned.val = c.minted ∧
      (∀ call e t, c.token.call call = (.error e, t) → t = c.token) ∧
      (∀ amount, c.token.Charges amount) ∧
      ∀ recipient amount receipt sent,
        c.token.call (.transfer recipient amount) = (.ok (.sent receipt), sent) →
          sent.call (.revert receipt) = (.ok .done, c.token) := by
  intro c
  have hbalanced : c.Balanced := (balanced_fresh bps).after hallowed hfits
  have hroom : c.token.supply < 2 ^ 128 := hbalanced.supply ▸ hfits
  exact ⟨hbalanced.supply, fun _ _ _ => PoolToken.eq_of_call_error,
    PoolToken.charges_of_supply_lt hroom, fun _ _ _ _ => hbalanced.revert_transfer hfits⟩

/-- Two transfers under different fees, of which the first is taken back, and two calls that are
refused. -/
def refundRun : List TokenCall :=
  [.mint ⟨1⟩ 1000, .mint ⟨1⟩ .top, .collect ⟨1⟩ 1000, .transfer ⟨2⟩ 500, .setFee 5000,
    .transfer ⟨2⟩ 100, .revert ⟨⟨2⟩, 500, 495⟩, .setFailing true, .collect ⟨2⟩ 50]

/-- Of the thousand that were created the pool has 890 and sixty are burned, ten by the collection
and fifty by the second transfer. -/
theorem supply_eq_minted_of_refund : ∃ c : Circulation, c = (fresh 100).after refundRun ∧
    (fresh 100).AllowsAll refundRun ∧ c.minted = 1000 ∧ c.token.pool = 890 ∧ c.token.burned = 60 ∧
      ∑ who, (c.token.balanceOf who).val + c.token.pool.val + c.token.burned.val = c.minted := by
  have hallowed : (fresh 100).AllowsAll refundRun := by decide +kernel
  have hminted : ((fresh 100).after refundRun).minted = 1000 := by decide +kernel
  have hpool : ((fresh 100).after refundRun).token.pool = 890 := by decide +kernel
  have hburned : ((fresh 100).after refundRun).token.burned = 60 := by decide +kernel
  obtain ⟨hsum, -⟩ := supply_eq_minted 100 refundRun hallowed (by rw [hminted]; decide)
  exact ⟨_, rfl, hallowed, hminted, hpool, hburned, hsum⟩

end Circulation

end Settlement
