import Settlement.Batch.Chunk
import Settlement.Number.Decimal.Quotient
import Settlement.Policy

namespace Settlement

/-- The share of `part` in `whole` in percent, in two places. The share in nothing is zero. -/
def percent (part whole : Count) : Decimal :=
  if whole = 0 then .zero
  else
    let share? := do
      let scaled ← (Decimal.ofCount part).mul? .hundred
      scaled.div? (Decimal.ofCount whole)
    (share?.getD .zero).round 2

/-- The cost of a settled batch, beside that of settling every operation on its own. These figures
are reported only. -/
structure CostReport where
  operations : Count
  settleCalls : Count
  eraUpdates : Count
  /-- The cost of settling every operation on its own. -/
  naiveCost : Count
  optimizedCost : Count
  saved : Count
  savingsPercent : Decimal
deriving DecidableEq

namespace CostModel

instance : Inhabited CostModel := ⟨{}⟩

/-- What batching has cost and saved at these prices. Every sum and every product is held at the
largest count, and a batch that costs more than its operations alone has saved nothing. -/
def estimate (m : CostModel) (operations settleCalls eraUpdates : Count) : CostReport :=
  let naiveCost := operations.satMul m.naivePerOperation
  let optimizedCost := ((operations.satMul m.batchedPerOperation).satAdd
    (settleCalls.satMul m.perSettleCall)).satAdd (eraUpdates.satMul m.perEraUpdate)
  let saved := naiveCost.satSub optimizedCost
  { operations, settleCalls, eraUpdates, naiveCost, optimizedCost, saved
    savingsPercent := percent saved naiveCost }

end CostModel

/-- The part of the working memory that chunking `n` operations saves, in four places. -/
def memorySavings (n : Count) : Decimal :=
  if n = 0 then .zero
  else
    let share? := (Decimal.ofCount (Word.clamp (chunkSize n.val))).div? (Decimal.ofCount n)
    ((share?.bind fun share => Decimal.one.sub? share).getD .zero).round 4

/-- What it saves to do one thing instead of another: the cost of both, their difference, and its
part of the larger one in percent. -/
structure Savings where
  quantity : Count
  naiveCost : Count
  cost : Count
  saved : Count
  savingsPercent : Decimal
deriving DecidableEq

/-- The savings of one cost over another. Where the other is the smaller one nothing is saved. -/
def Savings.compare (quantity naiveCost cost : Count) : Savings :=
  let saved := naiveCost.satSub cost
  { quantity, naiveCost, cost, saved, savingsPercent := percent saved naiveCost }

namespace CostModel

/-- One update of the era instead of one for each participant. -/
def eraSavings (m : CostModel) (participants : Count) : Savings :=
  .compare participants (participants.satMul m.perParticipantUpdate)
    (if participants = 0 then 0 else m.perEraUpdate)

/-- A blob instead of calldata. A short payload does not make up for the verification of the
blob. -/
def blobSavings (m : CostModel) (bytes : Count) : Savings :=
  .compare bytes (bytes.satMul m.perCalldataByte)
    ((bytes.satMul m.perBlobByte).satAdd m.blobVerification)

end CostModel

end Settlement
