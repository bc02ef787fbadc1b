import Settlement.Proofs.Ledger.Recorder
import Settlement.Proofs.Ledger.Settle

namespace Settlement

/-- Whether the token took this transfer back. An attempt that the token refuses takes nothing
back. -/
def Movement.takesBack (receipt : TransferReceipt) : Movement → Bool
  | .reverted r (.ok _) => r = receipt
  | _ => false

/-- The transfers that were made and not taken back afterwards. A transfer that the token made
counts unless the token took it back in the course of the same request. -/
def standing : List Movement → List TransferReceipt
  | [] => []
  | .sent _ _ (.ok receipt) :: rest =>
    if rest.any (Movement.takesBack receipt) then standing rest else receipt :: standing rest
  | _ :: rest => standing rest

/-- A transfer that stands, with the claims that it paid. A sweep pays no claims. -/
structure Payout where
  claimant : Address
  claims : List Ledger.Reservation
  receipt : TransferReceipt

/-- Whether the payout paid a claim of this claimant for this period. -/
def Payout.covers (payout : Payout) (claimant : Address) (p : PeriodId) : Bool :=
  claimant = payout.claimant ∧ p ∈ payout.claims.map Prod.fst

namespace Ledger

variable {τ : Type} [PayoutToken τ]

/-- The same ledger with a token that writes down what it is asked for. -/
def record (l : Ledger τ) : Ledger (Recorder τ) := l.mapToken fun token => { token }

/-- What the token is asked for in the course of a call, and what it answers. -/
def movements (l : Ledger τ) (call : Call) : List Movement :=
  (l.record.step call).token.movements

theorem step_record (l : Ledger τ) (call : Call) :
    (l.record.step call).mapToken Recorder.token = l.step call := by
  have hhandle := handle_mapToken tokenView_recorder l.record call.ctx call.request
  exact (congrArg Prod.snd hhandle).symm

/-- The transfers that a call leaves standing, with the claims that they pay. They stand whether the
call is granted or refused. -/
def payouts (l : Ledger τ) (call : Call) : List Payout :=
  (standing (l.movements call)).map fun receipt =>
    { claimant := call.ctx.caller, claims := call.request.claims, receipt }

/-- All payouts in the course of events, in order. What was paid in all is a sum over them. -/
def history (l : Ledger τ) : List (Event τ) → List Payout
  | [] => []
  | .request call :: rest => l.payouts call ++ history (l.step call) rest
  | .token change :: rest => history { l with token := change l.token } rest

/-- What a call pays, and what it changes about claims: nothing at all, or all claims of the request
by one transfer. -/
inductive Pays (l : Ledger τ) (call : Call) : Prop
  /-- No claim is paid, and nothing changes about claims. -/
  | none (hpayouts : ∀ payout ∈ l.payouts call, payout.claims = [])
      (hclaimed : ∀ p, ((l.step call).periodFund p).claimed = (l.periodFund p).claimed)
      (hregistry : (l.step call).registry = l.registry)
  /-- All claims of the request are paid by one transfer. -/
  | once (receipt : TransferReceipt) (losses : List Amount) (token : τ)
      (hpayable : l.Payable call.ctx.caller call.request.claims)
      (hlength : losses.length = call.request.claims.length)
      (hpayouts : l.payouts call = [⟨call.ctx.caller, call.request.claims, receipt⟩])
      (hstep : l.step call = l.settle call.ctx.caller call.request.claims losses token)

section recorder

variable {r r' : Recorder τ} {who : Address} {amount : Amount} {receipt : TransferReceipt}

theorem movements_of_transfer {answer : Result TransferReceipt}
    (h : PayoutToken.transfer r who amount = (answer, r')) :
    r'.movements = r.movements ++ [.sent who amount answer] := by
  cases h
  rfl

theorem movements_of_revert {answer : Result Unit}
    (h : PayoutToken.revert r receipt = (answer, r')) :
    r'.movements = r.movements ++ [.reverted receipt answer] := by
  cases h
  rfl

end recorder

variable {l : Ledger τ} {call : Call}

private theorem pays_none {movements : List Movement} {l' : Ledger τ}
    (hmovements : l.movements call = movements)
    (hnone : standing movements = [] ∨ call.request.claims = []) (hstep : l.step call = l')
    (hclaimed : ∀ p, (l'.periodFund p).claimed = (l.periodFund p).claimed)
    (hregistry : l'.registry = l.registry) : l.Pays call := by
  refine .none (fun payout hmem => ?_) (fun p => hstep ▸ hclaimed p) (hstep ▸ hregistry)
  obtain ⟨receipt, hreceipt, rfl⟩ := List.mem_map.1 hmem
  rcases hnone with hnone | hnone
  · rw [hmovements, hnone] at hreceipt
    cases hreceipt
  · exact hnone

/-- A payout pays its claims if it stands, whether the ledger accepts it or cannot call it off. -/
private theorem pays_of_payOut {total : Amount} {f : TransferReceipt × List Amount → Answer}
    (hpayable : l.Payable call.ctx.caller call.request.claims)
    (htotal : IsTotal call.request.claims total)
    (hhandle : l.record.handle call.ctx call.request = Outcome.map f
      (l.record.payOut call.ctx.caller call.request.claims total)) : l.Pays call := by
  have hmovements : l.movements call =
      (l.record.payOut call.ctx.caller call.request.claims total).2.token.movements :=
    congrArg (fun outcome : Outcome (Recorder τ) Answer => outcome.2.token.movements) hhandle
  have hstep : l.step call =
      (l.record.payOut call.ctx.caller call.request.claims total).2.mapToken Recorder.token := by
    rw [← step_record]
    exact congrArg (fun outcome : Outcome (Recorder τ) Answer =>
      outcome.2.mapToken Recorder.token) hhandle
  have hpaid := paidOut l.record call.ctx.caller call.request.claims total
  generalize l.record.payOut call.ctx.caller call.request.claims total = outcome
    at hmovements hstep hpaid
  cases hpaid with
  | unsent hsent =>
    have hasked := movements_of_transfer hsent
    exact pays_none (hmovements.trans hasked) (Or.inl rfl) hstep (fun _ => rfl) rfl
  | takenBack hsent hcause hback =>
    have hasked := movements_of_revert hback
    rw [movements_of_transfer hsent] at hasked
    refine pays_none (hmovements.trans hasked) (Or.inl ?_) hstep (fun _ => rfl) rfl
    simp [record, mapToken, standing, Movement.takesBack]
  | @kept receipt cause e sent token hsent hcause hback =>
    have hasked := movements_of_revert hback
    rw [movements_of_transfer hsent] at hasked
    have hlength := length_shares receipt.shortfall htotal.map_snd_ne_nil htotal.sum htotal.val_pos
    rw [List.length_map] at hlength
    refine .once receipt _ token.token hpayable hlength ?_ hstep
    unfold payouts
    rw [hmovements.trans hasked]
    simp [record, mapToken, standing, Movement.takesBack]
  | @accepted receipt losses token hsent hlosses =>
    have hasked := movements_of_transfer hsent
    refine .once receipt losses token.token hpayable (assess_eq_ok htotal hlosses).1 ?_ hstep
    unfold payouts
    rw [hmovements.trans hasked]
    simp [record, mapToken, standing]

theorem pays (l : Ledger τ) (call : Call) : l.Pays call := by
  cases hadmitted : l.record.admitted? call.ctx call.request with
  | some total =>
    obtain ⟨hpayable, htotal, f, hhandle⟩ := handle_of_admitted? hadmitted
    exact pays_of_payOut ⟨hpayable.nodup, hpayable.unclaimed, hpayable.covered⟩ htotal hhandle
  | none =>
    have hunpaid := unpaid_of_admitted?_eq_none hadmitted
    refine pays_none rfl ?_ (step_record l call).symm hunpaid.claimed hunpaid.registry
    by_cases hclaims : call.request.claims = []
    · exact Or.inr hclaims
    · obtain ⟨e, hrefused⟩ := handle_of_admitted?_eq_none hadmitted hclaims
      refine Or.inl ?_
      unfold movements step
      rw [hrefused]
      rfl

theorem admitted_of_mem_payouts {payout : Payout} (hmem : payout ∈ l.payouts call)
    (hclaims : payout.claims ≠ []) :
    payout.claims = call.request.claims ∧
      ∃ total, l.admitted? call.ctx call.request = some total := by
  cases pays l call with
  | none hpayouts => exact absurd (hpayouts payout hmem) hclaims
  | once receipt losses token hpayable hlength hpayouts hstep =>
    rw [hpayouts, List.mem_singleton] at hmem
    subst hmem
    refine ⟨rfl, ?_⟩
    cases hadmitted : l.admitted? call.ctx call.request with
    | some total => exact ⟨total, rfl⟩
    | none =>
      have hregistry := (unpaid_of_admitted?_eq_none hadmitted).registry
      change (l.step call).registry = l.registry at hregistry
      rw [hstep] at hregistry
      exact absurd hregistry (registry_settle_ne hpayable hclaims)

theorem exists_payout_of_ok {answer : Answer}
    (hanswer : (l.handle call.ctx call.request).1 = .ok answer)
    (hclaims : call.request.claims ≠ []) :
    ∃ payout ∈ l.payouts call, payout.claims = call.request.claims := by
  cases pays l call with
  | once receipt losses token hpayable hlength hpayouts hstep =>
    rw [hpayouts]
    exact ⟨_, List.mem_singleton.2 rfl, rfl⟩
  | none hpayouts hclaimed hregistry =>
    cases hadmitted : l.admitted? call.ctx call.request with
    | none =>
      obtain ⟨e, hrefused⟩ := handle_of_admitted?_eq_none hadmitted hclaims
      rw [hrefused] at hanswer
      cases hanswer
    | some total =>
      obtain ⟨hpayable, -, f, hhandle⟩ := handle_of_admitted? hadmitted
      unfold step at hregistry
      rw [hhandle] at hanswer hregistry
      have hpaid := paidOut l call.ctx.caller call.request.claims total
      generalize l.payOut call.ctx.caller call.request.claims total = outcome
        at hanswer hregistry hpaid
      cases hpaid with
      | accepted => exact absurd hregistry (registry_settle_ne hpayable hclaims)
      | _ => cases hanswer

end Ledger

end Settlement
