import Settlement.Token.Pool

namespace Settlement

/-- A token that misbehaves on demand: it may refuse to take transfers back, and its receipts may
report amounts other than those it moved. -/
structure FaultyToken where
  inner : PoolToken := .empty
  /-- Whether no transfer is taken back. -/
  refuseRevert : Bool := false
  /-- What receipts say was sent and received, whatever was. -/
  report : Option (Amount × Amount) := none

namespace FaultyToken

instance : Inhabited FaultyToken := ⟨{}⟩

instance : PayoutToken FaultyToken where
  collect t source amount :=
    let (answer, inner) := PayoutToken.collect t.inner source amount
    (answer, { t with inner })
  transfer t recipient amount :=
    let (answer, inner) := PayoutToken.transfer t.inner recipient amount
    let reported := match t.report with
      | some (sent, received) => answer.map fun r => { r with sent, received }
      | none => answer
    (reported, { t with inner })
  revert t receipt :=
    if t.refuseRevert then (.error (.transferFailed "revert refused"), t)
    else
      let (answer, inner) := PayoutToken.revert t.inner receipt
      (answer, { t with inner })

end FaultyToken

end Settlement
