import Settlement.Number.Decimal.Quotient
import Settlement.Number.SquareRoot
import Settlement.Operation

namespace Settlement

/-- The score of an operation: the square root of its age in seconds and the number of binary digits
of its amount, so that an old operation overtakes a fresh one of any size. One submitted in the
future has no age. -/
def priorityScore (op : Operation) (now : Timestamp) : Nat :=
  isqrt (now.since op.submittedAt).seconds + bitLength op.amount.val

/-- The items by descending score. Items of equal score keep their order, since the sort is
stable. -/
def rankByScore {α : Type} (score : α → Nat) (items : List α) : List α :=
  ((items.map fun item => (score item, item)).mergeSort fun a b => b.1 ≤ a.1).map Prod.snd

/-- The operations by descending score at a time, those of equal score in the order in which they
stood. -/
def prioritySort (now : Timestamp) (operations : List SignedOperation) : List SignedOperation :=
  rankByScore (fun op => priorityScore op.operation now) operations

/-- The operations with their positions, by descending score. The positions tell operations apart
that are equal. -/
def rankByPriority (now : Timestamp) (operations : List SignedOperation) :
    List (SignedOperation × Nat) :=
  rankByScore (fun item => priorityScore item.1.operation now) operations.zipIdx

/-- The positions of the `most` operations with the highest scores, the highest first. -/
def topByPriority (most : Nat) (now : Timestamp) (operations : List SignedOperation) : List Nat :=
  ((rankByPriority now operations).take most).map Prod.snd

/-- The mean score in two places, zero for no operations. It is reported with a settled batch. -/
def meanScore (now : Timestamp) (operations : List SignedOperation) : Decimal :=
  let total := operations.foldl (fun sum op => sum + priorityScore op.operation now) 0
  let mean? := do
    let total ← Decimal.ofParts? false total 0
    let size ← Decimal.ofParts? false operations.length 0
    total.div? size
  (mean?.getD .zero).round 2

end Settlement
